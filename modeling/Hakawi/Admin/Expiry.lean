import Hakawi.Admin.Bounds

/-!
# The sweep of expired roles

The sweep revokes in the name of `system`, which is no id, so its first statement of that kind
is rejected and the sweep ends with it. Whatever it finds, no assignment is revoked.
-/

namespace Admin
open Common Store Effects

/-- A call that leaves the assignments as they are: no row is written in a name that is no id. -/
def Call.LeavesAssignments : Call → Prop
  | .create _ => False
  | .revoke _ revokedBy _ => revokedBy = "system"
  | _ => True

theorem Call.Keeps.leavesAssignments {call : Call} (keeps : call.Keeps) :
    call.LeavesAssignments := by
  cases call <;> first | exact keeps.elim | trivial

theorem perform_leavesAssignments (uuids : Uuids) (choice : Choice) {world : World} {call : Call}
    (leaves : call.LeavesAssignments) :
    (world.perform uuids choice call).2.assignments = world.assignments := by
  cases call with
  | create data => exact leaves.elim
  | revoke id revokedBy revokeReason =>
    obtain rfl : revokedBy = "system" := leaves
    simp only [World.perform, World.read, uuids.read_system]
  | updateUser id adminRole expiresAt =>
    rw [World.perform]
    cases World.read uuids id <;> rfl
  | _ => rfl

theorem exec_leavesAssignments (uuids : Uuids) (choice : Choice) {world : World} {call : Call}
    (leaves : call.LeavesAssignments) :
    (exec uuids choice world call).2.assignments = world.assignments := by
  rcases exec_state uuids choice world call with same | performed
  · rw [same]
    rfl
  · rw [performed, perform_leavesAssignments uuids choice leaves]
    rfl

namespace AdminRolesService

theorem revokeRole_leavesAssignments (input : RevokeAdminRoleInput) :
    OnlyE Call.LeavesAssignments (revokeRole "system" input) := by
  refine OnlyE.bind (onlyE_call trivial) fun found => ?_
  cases found with
  | none => exact onlyE_throw _
  | some activeAssignment =>
    refine OnlyE.bind (onlyE_call rfl) fun revoked => ?_
    cases revoked with
    | none => exact onlyE_throw _
    | some revoked =>
      have leaves {α : Type} {p : Method α} (only : OnlyE Call.Keeps p) :
          OnlyE Call.LeavesAssignments p := only.mono fun _ => Call.Keeps.leavesAssignments
      have reads {α : Type} {p : Method α} (only : OnlyE Call.Reads p) :
          OnlyE Call.LeavesAssignments p := leaves (only.mono fun _ => Call.Reads.keeps)
      refine OnlyE.bind (reads (remainingRole_reads _)) fun remaining => ?_
      refine OnlyE.bind (leaves (UsersService.update_keeps _ _ _)) fun _ => ?_
      refine OnlyE.bind (onlyE_call trivial) fun _ => ?_
      exact OnlyE.bind (reads (UsersService.findById_reads _)) fun _ => onlyE_pure _

theorem revokeExpired_leavesAssignments (expired : List AdminRoleAssignment) :
    OnlyE Call.LeavesAssignments (revokeExpired expired) := by
  induction expired with
  | nil => exact onlyE_pure _
  | cons assignment rest ih =>
    exact OnlyE.bind (revokeRole_leavesAssignments _) fun _ => ih.bind fun _ => onlyE_pure _

theorem expireRoles_leavesAssignments : OnlyE Call.LeavesAssignments expireRoles :=
  OnlyE.bind (onlyE_call trivial) fun expired => revokeExpired_leavesAssignments expired

section Sweep
variable (uuids : Uuids) (choices : Nat → Choice) (world : World)

/-- The world after a sweep. -/
def swept : World := (expireRoles.run.eval (exec uuids) choices world).2

/-- No sweep changes an assignment, whether its calls fail or not. -/
theorem swept_assignments : (swept uuids choices world).assignments = world.assignments := by
  have keeps (choice : Choice) (between : World) (call : Call) (leaves : call.LeavesAssignments)
      (same : between.assignments = world.assignments) :
      (exec uuids choice between call).2.assignments = world.assignments :=
    (exec_leavesAssignments uuids choice leaves).trans same
  exact expireRoles_leavesAssignments.only.eval keeps choices rfl

/-- What a sweep is for: the assignments that had expired when it started are revoked, and no
others are. -/
def RevokesExpired : Prop :=
  ∀ assignment ∈ world.assignments.rows,
    ∃ after ∈ (swept uuids choices world).assignments.rows, after.id = assignment.id ∧
      (after.revokedAt ≠ none ↔ assignment.revokedAt ≠ none ∨ assignment.Expired world.clock)

end Sweep

/-- It does what it is for when there is nothing to do. -/
theorem expired_roles_revoked (uuids : Uuids) (choices : Nat → Choice) (world : World) :
    RevokesExpired uuids choices world ↔
      ∀ assignment ∈ world.assignments.rows, assignment.Expired world.clock →
        assignment.revokedAt ≠ none := by
  rw [RevokesExpired, swept_assignments]
  constructor
  · intro revokes assignment member expired
    obtain ⟨after, still, same, iff⟩ := revokes assignment member
    have row : after = assignment :=
      List.inj_on_of_nodup_map world.assignments.unique still member same
    rw [row] at iff
    exact iff.mpr (Or.inr expired)
  · intro revoked assignment member
    refine ⟨assignment, member, rfl, Or.inl, ?_⟩
    rintro (before | expired)
    · exact before
    · exact revoked assignment member expired

/-- A role that has expired, and another that has not. -/
def expiredRole : World :=
  let row (n : Nat) (time : Int) (id : Nat) : AdminRoleAssignment :=
    { id, userId := adminId n, adminRole := .contentModerator, assignedBy := adminId 0
      reason := none, assignedAt := 0, revokedAt := none, revokedBy := none
      revokeReason := none, environment := "production", expiresAt := some time }
  { World.admins 3 with
    clock := 10
    assignments := (Table.empty.insert (row 1 5) fun _ => rfl).insert (row 2 20) fun _ => rfl }

/-- Nothing goes wrong, and the role is left. -/
theorem expired_role_stays : ¬ RevokesExpired .plain (fun _ => {}) expiredRole := by
  intro revokes
  rw [RevokesExpired, swept_assignments] at revokes
  revert revokes
  decide

end AdminRolesService
end Admin
