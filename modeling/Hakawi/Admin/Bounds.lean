import Hakawi.Admin.Service

/-!
# How many assignments there are

Nobody is to have a role twice, and no more than five are to be super admins. The table has no
index for either: both are checked by reads, some calls before the insertion. The bounds hold at
every moment exactly if every insertion finds room for itself. A call that runs by itself finds
it, except for one that breaks the glass to be the sixth super admin, which counts nobody.
-/

namespace Admin
open Common Store Effects

/-- Nobody has a role twice, and there are no more than five super admins. -/
structure World.Bounded (world : World) : Prop where
  superAdmins : world.countByRole .superAdmin ≤ MAX_SUPER_ADMINS
  single : ∀ userId adminRole,
    (world.assignments.rows.countP fun a => a.Grants userId adminRole) ≤ 1

/-- Nobody else has the role of a super admin, or fewer than five have it; and this user does
not have the role. -/
def World.HasRoom (world : World) (userId : String) (adminRole : AdminRole) : Prop :=
  (∀ a ∈ world.assignments.rows, ¬ a.Grants userId adminRole) ∧
    (adminRole = .superAdmin → world.countByRole .superAdmin < MAX_SUPER_ADMINS)

instance (world : World) (userId : String) (adminRole : AdminRole) :
    Decidable (world.HasRoom userId adminRole) := inferInstanceAs (Decidable (_ ∧ _))

section Steps
variable (uuids : Uuids)

/-- An insertion that is carried out finds room. -/
def Warranted (choice : Choice) (world : World) : Call → Prop
  | .create data => choice.outcome ≠ .refused → ∀ users ∈ (world.references uuids data).toOption,
      world.HasRoom users.1 data.adminRole
  | _ => True

instance (choice : Choice) (world : World) (call : Call) :
    Decidable (Warranted uuids choice world call) := by
  cases call <;> unfold Warranted <;> infer_instance

variable {uuids} {choice : Choice} {world : World} {call : Call}

/-- Every call but an insertion and a revocation leaves the assignments. -/
def Call.Keeps : Call → Prop
  | .create _ | .revoke _ _ _ => False
  | _ => True

/-- Calls that write neither users nor assignments. -/
def Call.Reads : Call → Prop
  | .create _ | .revoke _ _ _ | .updateUser _ _ _ => False
  | _ => True

theorem Call.Reads.keeps {call : Call} (reads : call.Reads) : call.Keeps := by
  cases call <;> first | exact reads.elim | trivial

theorem perform_assignments (keeps : call.Keeps) :
    (world.perform uuids choice call).2.assignments = world.assignments := by
  cases call with
  | create _ | revoke _ _ _ => exact keeps.elim
  | updateUser id adminRole expiresAt =>
    rw [World.perform]
    split <;> rfl
  | _ => rfl

variable (uuids choice world) in
theorem exec_assignments (keeps : call.Keeps) :
    (exec uuids choice world call).2.assignments = world.assignments := by
  rcases exec_state uuids choice world call with waited | carried
  · rw [waited]
    rfl
  · rw [carried, perform_assignments keeps]
    rfl

variable (uuids choice world) in
/-- What an insertion leaves. -/
theorem exec_create (data : NewAdminRoleAssignment) :
    (exec uuids choice world (.create data)).2.assignments =
      if choice.outcome = .refused then world.assignments
      else match world.references uuids data with
        | .error _ => world.assignments
        | .ok (userId, assignedBy) => world.assignments.insert
            (World.row (world.clock + choice.elapsed) userId assignedBy data) fun _ => rfl := by
  have performed : ((world.later choice.elapsed).perform uuids choice
      (.create data)).2.assignments = match world.references uuids data with
        | .error _ => world.assignments
        | .ok (userId, assignedBy) => world.assignments.insert
            (World.row (world.clock + choice.elapsed) userId assignedBy data) fun _ => rfl := by
    have same : (world.later choice.elapsed).references uuids data =
        world.references uuids data := rfl
    simp only [World.perform, same]
    cases world.references uuids data with
    | error e => rfl
    | ok users => rfl
  cases outcome : choice.outcome <;> simp only [exec, Call.mayFail, outcome, if_true, reduceCtorEq,
    if_false] <;> first | rfl | exact performed

variable (uuids choice world) in
/-- A revocation revokes the row of one id, or does nothing. -/
theorem exec_revoke (id : Nat) (revokedBy revokeReason : String) :
    (exec uuids choice world (.revoke id revokedBy revokeReason)).2.assignments =
        world.assignments ∨
      ∃ time by', (exec uuids choice world (.revoke id revokedBy revokeReason)).2.assignments =
        world.assignments.modify id (·.revoke time by' revokeReason) fun _ => rfl := by
  rcases exec_state uuids choice world (.revoke id revokedBy revokeReason) with waited | carried
  · left
    rw [waited]
    rfl
  · rw [carried, World.perform]
    cases World.read uuids revokedBy with
    | error e => exact Or.inl rfl
    | ok reader =>
      simp only
      split
      · exact Or.inl rfl
      · exact Or.inr ⟨_, _, rfl⟩

end Steps

section Counts
variable {rows : List AdminRoleAssignment} {p : AdminRoleAssignment → Bool}

/-- A revocation makes no row one that counts. -/
theorem countP_revoke_le (unrevoked : ∀ a, p a → a.revokedAt = none) (id : Nat) (time : Int)
    (by' reason : String) :
    (rows.map fun a => if a.id = id then a.revoke time by' reason else a).countP p ≤
      rows.countP p := by
  rw [List.countP_map]
  refine List.countP_mono_left fun a _ counts => ?_
  simp only [Function.comp_apply] at counts
  split at counts
  · cases unrevoked _ counts
  · exact counts

theorem Bounded.of_counts {world after : World} (bounded : world.Bounded)
    (fewer : ∀ p : AdminRoleAssignment → Bool, (∀ a, p a → a.revokedAt = none) →
      after.assignments.rows.countP p ≤ world.assignments.rows.countP p) : after.Bounded := by
  constructor
  · refine (fewer _ fun a counts => ?_).trans bounded.superAdmins
    exact (of_decide_eq_true counts).2
  · intro userId adminRole
    refine (fewer _ fun a counts => ?_).trans (bounded.single userId adminRole)
    exact (of_decide_eq_true counts).2.2

/-- An insertion keeps the bounds exactly if there is room for it. -/
theorem bounded_insert_iff {world after : World} (bounded : world.Bounded)
    {now : Int} {userId assignedBy : String} {data : NewAdminRoleAssignment}
    (inserted : after.assignments =
      world.assignments.insert (World.row now userId assignedBy data) fun _ => rfl) :
    after.Bounded ↔ world.HasRoom userId data.adminRole := by
  have rows : after.assignments.rows = world.assignments.rows ++
      [World.row now userId assignedBy data world.assignments.next] :=
    congrArg Table.rows inserted
  have granted : ∀ other role,
      (World.row now userId assignedBy data world.assignments.next).Grants other role ↔
        other = userId ∧ role = data.adminRole := by
    intro other role
    simp only [AdminRoleAssignment.Grants, World.row, and_true]
    exact and_congr eq_comm eq_comm
  have none_iff : (∀ a ∈ world.assignments.rows, ¬ a.Grants userId data.adminRole) ↔
      (world.assignments.rows.countP fun a => a.Grants userId data.adminRole) = 0 := by
    simp only [List.countP_eq_zero, decide_eq_true_eq]
  have supers : after.countByRole .superAdmin = world.countByRole .superAdmin +
      if data.adminRole = .superAdmin then 1 else 0 := by
    rw [World.countByRole, World.countByRole, rows, List.countP_append, List.countP_singleton]
    simp only [World.row, and_true, decide_eq_true_eq]
  rw [World.HasRoom, none_iff]
  constructor
  · intro still
    constructor
    · have one := still.single userId data.adminRole
      rw [rows, List.countP_append, List.countP_singleton,
        if_pos (by simp only [granted, and_self, decide_true])] at one
      omega
    · intro role
      have limit := still.superAdmins
      rw [supers, if_pos role] at limit
      omega
  · rintro ⟨free, below⟩
    constructor
    · rw [supers]
      have limit := bounded.superAdmins
      split
      · rename_i role
        have := below role
        omega
      · omega
    · intro other role
      have before := bounded.single other role
      rw [rows, List.countP_append, List.countP_singleton]
      split
      · rename_i same
        obtain ⟨rfl, rfl⟩ := (granted other role).mp (of_decide_eq_true same)
        omega
      · omega

end Counts

section Steps
variable {uuids : Uuids}

theorem Bounded.of_assignments {world after : World} (bounded : world.Bounded)
    (same : after.assignments = world.assignments) : after.Bounded :=
  Bounded.of_counts bounded fun p _ => by rw [same]

theorem bounded_step (choice : Choice) (world : World) (call : Call) (bounded : world.Bounded) :
    (exec uuids choice world call).2.Bounded ↔ Warranted uuids choice world call := by
  cases call with
  | create data =>
    have left := exec_create uuids choice world data
    by_cases refused : choice.outcome = .refused
    · rw [if_pos refused] at left
      exact iff_of_true (Bounded.of_assignments bounded left) fun performed =>
        absurd refused performed
    · rw [if_neg refused] at left
      cases named : world.references uuids data with
      | error e =>
        rw [named] at left
        refine iff_of_true (Bounded.of_assignments bounded left) fun _ users member => ?_
        rw [named] at member
        cases member
      | ok users =>
        rw [named] at left
        refine (bounded_insert_iff bounded left).trans ?_
        simp only [Warranted, named, Except.toOption, Option.mem_some_iff, forall_eq', ne_eq,
          refused, not_false_eq_true, true_implies]
  | revoke id revokedBy revokeReason =>
    refine iff_of_true ?_ trivial
    rcases exec_revoke uuids choice world id revokedBy revokeReason with
      same | ⟨time, revoker, revoked⟩
    · exact Bounded.of_assignments bounded same
    · refine Bounded.of_counts bounded fun p unrevoked => ?_
      rw [revoked]
      exact countP_revoke_le unrevoked id time revoker revokeReason
  | _ =>
    refine iff_of_true ?_ trivial
    exact Bounded.of_assignments bounded (exec_assignments uuids choice world trivial)

end Steps

section Alone

/-- The execution, where every insertion is to find room. -/
def warranted (uuids : Uuids) : Program.OpSpec Call Call.Answer World :=
  Pool.guarded (exec uuids) (Warranted uuids)

theorem onlyE_call {A : Call → Prop} {op : Call} (allowed : A op) : OnlyE A (call op) :=
  ⟨allowed, fun _ => trivial⟩

theorem onlyE_liftM {α : Type} {A : Call → Prop} (result : Except Exception α) :
    OnlyE A (liftM result : Method α) := ⟨trivial⟩

namespace UsersService

theorem findById_reads (id : String) : OnlyE Call.Reads (findById id) := by
  refine OnlyE.bind (onlyE_call trivial) fun found => ?_
  cases found with
  | none => exact onlyE_throw _
  | some user => exact onlyE_pure _

theorem update_keeps (id : String) (adminRole : Option AdminRole) (expiresAt : Option Int) :
    OnlyE Call.Keeps (update id adminRole expiresAt) := by
  refine OnlyE.bind (onlyE_call trivial) fun found => ?_
  cases found with
  | none => exact onlyE_throw _
  | some user => exact onlyE_pure _

end UsersService

theorem AdminRolesService.finalExpiresAt_reads (settings : Settings) (expiresAt : Option String) :
    OnlyE Call.Reads (finalExpiresAt settings expiresAt) := by
  rw [finalExpiresAt]
  cases expiresAt.map settings.parseDate with
  | none => exact OnlyE.bind (onlyE_call trivial) fun _ => onlyE_liftM _
  | some parsed =>
    cases parsed with
    | none => exact onlyE_throw _
    | some time =>
      refine OnlyE.bind (onlyE_call trivial) fun first => ?_
      split
      · exact onlyE_throw _
      · refine OnlyE.bind (onlyE_call trivial) fun second => ?_
        split
        · exact onlyE_throw _
        · exact onlyE_liftM _

/-- Every call but an insertion. -/
def Call.InsertsNothing : Call → Prop
  | .create _ => False
  | _ => True

theorem Call.Keeps.insertsNothing {call : Call} (keeps : call.Keeps) : call.InsertsNothing := by
  cases call <;> first | exact keeps.elim | trivial

theorem Call.Reads.insertsNothing {call : Call} (reads : call.Reads) : call.InsertsNothing :=
  reads.keeps.insertsNothing

namespace AdminRolesService

theorem remainingRole_reads (userId : String) : OnlyE Call.Reads (remainingRole userId) := by
  refine OnlyE.bind (OnlyE.bind (onlyE_call trivial) fun _ => onlyE_pure _) fun roles => ?_
  cases roles with
  | nil => exact onlyE_pure _
  | cons role rest =>
    refine OnlyE.bind ?_ fun _ => onlyE_pure _
    refine OnlyE.bind (onlyE_call trivial) fun found => ?_
    cases found <;> exact onlyE_pure _

theorem revokeRole_insertsNothing (revokedById : String) (input : RevokeAdminRoleInput) :
    OnlyE Call.InsertsNothing (revokeRole revokedById input) := by
  refine OnlyE.bind (onlyE_call trivial) fun found => ?_
  cases found with
  | none => exact onlyE_throw _
  | some activeAssignment =>
    refine OnlyE.bind (onlyE_call trivial) fun revoked => ?_
    cases revoked with
    | none => exact onlyE_throw _
    | some revoked =>
      have reads {α : Type} {p : Method α} (only : OnlyE Call.Reads p) :
          OnlyE Call.InsertsNothing p := only.mono fun _ => Call.Reads.insertsNothing
      refine OnlyE.bind (reads (remainingRole_reads _)) fun remaining => ?_
      refine OnlyE.bind ((UsersService.update_keeps _ _ _).mono
        fun _ => Call.Keeps.insertsNothing) fun _ => ?_
      refine OnlyE.bind (onlyE_call trivial) fun _ => ?_
      exact OnlyE.bind (reads (UsersService.findById_reads _)) fun _ => onlyE_pure _

theorem revokeExpired_insertsNothing (expired : List AdminRoleAssignment) :
    OnlyE Call.InsertsNothing (revokeExpired expired) := by
  induction expired with
  | nil => exact onlyE_pure _
  | cons assignment rest ih =>
    exact OnlyE.bind (revokeRole_insertsNothing _ _) fun _ => ih.bind fun _ => onlyE_pure _

theorem expireRoles_insertsNothing : OnlyE Call.InsertsNothing expireRoles :=
  OnlyE.bind (onlyE_call trivial) fun expired => revokeExpired_insertsNothing expired

end AdminRolesService

section Rules
variable {uuids : Uuids} {world : World} {α β : Type}

theorem wpE_insertsNothing {p : Method α} (only : OnlyE Call.InsertsNothing p) :
    wpE (warranted uuids) p (fun _ _ => True) world := by
  refine Pool.guarded_of_only only.only (fun choice world call allowed => ?_)
    (fun _ _ _ _ _ => trivial) trivial
  cases call with
  | create _ => exact allowed.elim
  | _ => trivial

theorem Call.Keeps.warranted {call : Call} (keeps : call.Keeps) (choice : Choice)
    (world : World) : Warranted uuids choice world call := by
  cases call with
  | create _ => exact keeps.elim
  | _ => trivial

/-- Calls that leave the assignments. -/
theorem wpE_keeps {p : Method α} {Q : Except Exception α → World → Prop}
    (only : OnlyE Call.Keeps p)
    (ends : ∀ result after, after.assignments = world.assignments → Q result after) :
    wpE (warranted uuids) p Q world := by
  have same : wpE (warranted uuids) p
      (fun _ after => after.assignments = world.assignments) world := by
    refine Pool.guarded_of_only only.only (fun c s op keeps => keeps.warranted c s)
      (fun c s op keeps before => ?_) rfl
    exact (exec_assignments uuids c s keeps).trans before
  exact wpE_mono (Pool.guarded_monotone _) ends same

theorem wpE_reads {p : Method α} {Q : Except Exception α → World → Prop}
    (only : OnlyE Call.Reads p)
    (ends : ∀ result after, after.assignments = world.assignments → Q result after) :
    wpE (warranted uuids) p Q world := wpE_keeps (only.mono fun _ => Call.Reads.keeps) ends

/-- One call that leaves the assignments, and what it answers. -/
theorem wpE_answer {op : Call} {next : op.Value → Method β}
    {Q : Except Exception β → World → Prop} (keeps : op.Keeps)
    (goes : ∀ choice value after, after.assignments = world.assignments →
      (exec uuids choice world op).1 = .ok value → wpE (warranted uuids) (next value) Q after)
    (thrown : ∀ e after, after.assignments = world.assignments → Q (.error e) after) :
    wpE (warranted uuids) (call op >>= next) Q world := by
  rw [wpE_bind]
  intro choice
  have same := exec_assignments uuids choice world keeps
  refine ⟨keeps.warranted choice world, ?_⟩
  simp only [Program.wp_done]
  cases answered : (exec uuids choice world op).1 with
  | ok value => exact goes choice value _ same answered
  | error e => exact thrown e _ same

end Rules

section Checks
variable {uuids : Uuids} {choice : Choice} {world after : World}

theorem read_eq_ok {text id : String} :
    World.read uuids text = .ok id ↔ uuids.read text = some id := by
  rw [World.read]
  cases uuids.read text <;> simp

theorem visited_eq_nil {rank : Nat → Nat} {rows : List AdminRoleAssignment}
    (empty : (World.visited rank rows).head? = none) : rows = [] := by
  rw [List.head?_eq_none_iff, World.visited] at empty
  have long := List.length_insertionSort (fun a b => rank a.id ≤ rank b.id) rows
  rw [empty] at long
  exact List.length_eq_zero_iff.mp long.symm

theorem free_of_none {userId id : String} {adminRole : AdminRole}
    (answered : (exec uuids choice world (.findActiveByUserAndRole userId adminRole)).1 = .ok none)
    (named : uuids.read userId = some id) :
    ∀ a ∈ world.assignments.rows, ¬ a.Grants id adminRole := by
  have found := answered
  rw [exec_answers answered] at found
  simp only [World.perform, read_eq_ok.mpr named, Except.map, Except.ok.injEq] at found
  have nothing := visited_eq_nil found
  simp only [List.filter_eq_nil_iff, decide_eq_true_eq] at nothing
  exact nothing

theorem HasRoom.of_assignments {userId : String} {adminRole : AdminRole}
    (room : world.HasRoom userId adminRole) (same : after.assignments = world.assignments) :
    after.HasRoom userId adminRole := by
  rw [World.HasRoom, World.countByRole, same]
  exact room

theorem references_read {data : NewAdminRoleAssignment} {users : String × String}
    (named : world.references uuids data = .ok users) : uuids.read data.userId = some users.1 := by
  rw [World.references] at named
  cases userId : World.read uuids data.userId with
  | error e =>
    rw [userId] at named
    cases named
  | ok id =>
    rw [userId] at named
    cases assignedBy : World.read uuids data.assignedBy with
    | error e =>
      rw [assignedBy] at named
      cases named
    | ok by' =>
      rw [assignedBy] at named
      simp only [bind, Except.bind] at named
      split at named
      · cases named
      split at named
      · cases named
      cases named
      exact read_eq_ok.mp userId

/-- An insertion for which there was room when it was looked for, and nothing inserted after. -/
theorem wpE_create {β : Type} {data : NewAdminRoleAssignment}
    {next : AdminRoleAssignment → Method β}
    {before : World} (room : ∀ id, uuids.read data.userId = some id →
      before.HasRoom id data.adminRole) (same : world.assignments = before.assignments)
    (keeps : ∀ row, OnlyE Call.Keeps (next row)) :
    wpE (warranted uuids) (call (.create data) >>= next) (fun _ _ => True) world := by
  rw [wpE_bind]
  intro choice
  refine ⟨fun _ users member => ?_, ?_⟩
  · cases named : world.references uuids data with
    | error e =>
      rw [named] at member
      cases member
    | ok pair =>
      rw [named] at member
      cases member
      exact HasRoom.of_assignments (room _ (references_read named)) same
  · simp only [Program.wp_done]
    cases (exec uuids choice world (.create data)).1 with
    | ok row => exact wpE_keeps (keeps row) fun _ _ _ => trivial
    | error e => trivial

end Checks

section Operations
variable {uuids : Uuids} (settings : Settings) {world : World}

namespace AdminRolesService

theorem wpE_assertAssignable (userId : String) (adminRole : AdminRole) :
    wpE (warranted uuids) (assertAssignable userId adminRole) (fun result after =>
      after.assignments = world.assignments ∧ (result = .ok () → ∀ id,
        uuids.read userId = some id → world.HasRoom id adminRole)) world := by
  rw [assertAssignable]
  refine wpE_answer trivial (fun choice found after same answered => ?_) fun e after same =>
    ⟨same, fun never => by cases never⟩
  cases found with
  | some assignment => exact ⟨same, fun never => by cases never⟩
  | none =>
    have free : ∀ id, uuids.read userId = some id →
        ∀ a ∈ world.assignments.rows, ¬ a.Grants id adminRole :=
      fun _ named => free_of_none answered named
    by_cases role : adminRole = .superAdmin
    · simp only [role, if_true]
      refine wpE_answer trivial (fun choice count later same' answered => ?_) fun e later same' =>
        ⟨same'.trans same, fun never => by cases never⟩
      have counted : count = after.countByRole := by
        rw [exec_answers answered] at answered
        exact (Except.ok.inj answered).symm
      by_cases enough : MAX_SUPER_ADMINS ≤ count .superAdmin
      · simp only [enough, if_true]
        exact ⟨same'.trans same, fun never => by cases never⟩
      · simp only [enough, if_false]
        refine ⟨same'.trans same, fun _ id named => ⟨role ▸ free id named, fun _ => ?_⟩⟩
        rw [counted, World.countByRole, same] at enough
        exact Nat.lt_of_not_le enough
    · simp only [role, if_false]
      exact ⟨same, fun _ id named => ⟨free id named, fun super => absurd super role⟩⟩

theorem assignRole_warranted (assignedById : String) (input : AssignAdminRoleInput) :
    wpE (warranted uuids) (assignRole settings assignedById input) (fun _ _ => True) world := by
  have mono : (warranted uuids).Monotone := Pool.guarded_monotone _
  refine wpE_seq mono (wpE_reads (UsersService.findById_reads _) fun _ _ same => same)
    (fun _ _ _ => trivial) fun targetUser after same => ?_
  split
  · exact trivial
  refine wpE_seq mono (wpE_assertAssignable input.userId input.adminRole) (fun _ _ _ => trivial)
    fun _ checked room => ?_
  have there := room.2 rfl
  refine wpE_seq mono (wpE_reads (finalExpiresAt_reads _ _) fun _ _ same => same)
    (fun _ _ _ => trivial) fun expiresAt later same' => ?_
  refine wpE_create there (same'.trans room.1) fun assignment => ?_
  refine OnlyE.bind (UsersService.update_keeps _ _ _) fun _ => ?_
  exact OnlyE.bind (onlyE_call trivial) fun _ => onlyE_pure _

/-- Nobody is counted. -/
theorem breakGlass_warranted (userId : String) (dto : BreakGlassInput)
    (below : dto.adminRole = .superAdmin → world.countByRole .superAdmin < MAX_SUPER_ADMINS) :
    wpE (warranted uuids) (breakGlass settings userId dto) (fun _ _ => True) world := by
  have mono : (warranted uuids).Monotone := Pool.guarded_monotone _
  refine wpE_seq mono (wpE_reads (UsersService.findById_reads _) fun _ _ same => same)
    (fun _ _ _ => trivial) fun user after same => ?_
  split
  · exact trivial
  split
  · exact trivial
  refine wpE_answer trivial (fun choice found checked same' answered => ?_) fun _ _ _ => trivial
  cases found with
  | some assignment => exact trivial
  | none =>
    have free : ∀ id, uuids.read userId = some id →
        ∀ a ∈ after.assignments.rows, ¬ a.Grants id dto.adminRole :=
      fun _ named => free_of_none answered named
    simp only
    split
    · exact trivial
    refine wpE_answer trivial (fun _ now later same'' _ => ?_) fun _ _ _ => trivial
    refine wpE_liftM_bind _ (fun _ _ => trivial) fun expiresAt _ => ?_
    refine wpE_create (fun id named => ⟨free id named, fun role => ?_⟩) (same''.trans same')
      fun assignment => ?_
    · rw [World.countByRole, same]
      exact below role
    · refine OnlyE.bind (UsersService.update_keeps _ _ _) fun _ => ?_
      exact OnlyE.bind (onlyE_call trivial) fun _ => onlyE_pure _

end AdminRolesService

/-- Not the sixth super admin by breaking the glass. -/
def Operation.Counted (world : World) : Operation → Prop
  | .breakGlass _ dto => dto.adminRole = .superAdmin →
      world.countByRole .superAdmin < MAX_SUPER_ADMINS
  | _ => True

theorem Operation.warranted {operation : Operation} (counted : operation.Counted world) :
    wpE (warranted uuids) (operation.run settings) (fun _ _ => True) world := by
  have mono : (Admin.warranted uuids).Monotone := Pool.guarded_monotone _
  have alone {α : Type} {p : Method α}
      (first : wpE (Admin.warranted uuids) p (fun _ _ => True) world) :
      wpE (Admin.warranted uuids) (do let _ ← p) (fun _ _ => True) world :=
    wpE_seq mono first (fun _ _ _ => trivial) fun _ _ _ => trivial
  cases operation with
  | assignRole assignedById input =>
    exact alone (AdminRolesService.assignRole_warranted settings assignedById input)
  | breakGlass userId dto =>
    exact alone (AdminRolesService.breakGlass_warranted settings userId dto counted)
  | revokeRole revokedById input =>
    exact alone (wpE_insertsNothing (AdminRolesService.revokeRole_insertsNothing _ _))
  | expireRoles => exact alone (wpE_insertsNothing AdminRolesService.expireRoles_insertsNothing)
  | handleExpiredRoles =>
    refine wpE_insertsNothing (OnlyE.tryCatch ?_ fun _ => onlyE_pure _)
    exact OnlyE.bind AdminRolesService.expireRoles_insertsNothing fun _ => onlyE_pure _

/-- The calls at hand, none of them begun. -/
def pool (world : World) (operations : List Operation) :
    Pool World Call Call.Answer (Except Exception Unit) :=
  ⟨world, operations.map fun operation => (operation.run settings).run⟩

variable (uuids) in
/-- In any interleaving the bounds hold at every moment exactly if every insertion finds room. A
call finds it that runs alone, unless it is to make a sixth super admin by breaking the glass. -/
theorem bounded_iff (bounded : world.Bounded) :
    (∀ operations schedule,
      Pool.EachCall (exec uuids) (Warranted uuids) schedule (pool settings world operations) ↔
        ∀ n, ((pool settings world operations).run (exec uuids) (schedule.take n)).state.Bounded) ∧
    ∀ operation : Operation, operation.Counted world → ∀ schedule,
      Pool.EachCall (exec uuids) (Warranted uuids) schedule (pool settings world [operation]) := by
  constructor
  · intro operations schedule
    exact Pool.eachCall_iff (exec uuids) bounded_step bounded schedule
  · intro operation counted schedule
    exact Pool.eachCall_alone (operation.warranted settings counted) schedule

end Operations
end Alone

section Examples

def turns (threads : List Nat) : List (Nat × Choice) := threads.map fun i => (i, {})

/-- Each call in turn, to its end. -/
def inTurn (operations : Nat) : List (Nat × Choice) :=
  turns ((List.range operations).flatMap fun i => List.replicate 8 i)

theorem admins_bounded (number : Nat) : (World.admins number).Bounded :=
  ⟨Nat.zero_le _, fun _ _ => Nat.zero_le _⟩

/-- Two assignments of one role to two admins, the calls of one between those of the other. -/
theorem bounded_apart : ((pool .plain (.admins 3)
    [.assigns 1 .contentModerator, .assigns 2 .contentModerator]).run (exec .plain)
      ((turns [0, 0, 1, 1, 1, 0, 1, 1, 1, 0, 0, 0]).take 12)).state.Bounded :=
  ((bounded_iff .plain .plain (admins_bounded 3)).1 _ _).mp (by decide +kernel) 12

/-- Two calls that both look before either inserts give one admin a role twice, and breaking the
glass makes a sixth super admin. -/
theorem bounds_broken :
    ¬ ((pool .plain (.admins 2) [.assigns 1 .contentModerator, .assigns 1 .contentModerator]).run
      (exec .plain) (turns [0, 0, 1, 1, 0, 0, 1, 1])).state.Bounded ∧
    ¬ ((pool .plain (.admins 7) ((List.range 5).map (fun n => .assigns (n + 1) .superAdmin) ++
        [.breakGlass (adminId 6) ⟨.superAdmin, "The site is down", 15⟩])).run
      (exec .plain) (inTurn 6)).state.Bounded := by
  constructor
  · intro bounded
    have twice := bounded.single (adminId 1) .contentModerator
    revert twice
    decide +kernel
  · intro bounded
    have six := bounded.superAdmins
    revert six
    decide +kernel

end Examples
end Admin
