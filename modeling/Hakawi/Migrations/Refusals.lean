import Hakawi.Migrations.Verify

/-!
# Rollbacks that are refused

`down` asks every selected migration for the header of its down script before it reverts
one, and the script for its statements only when its turn comes. A script that has the
header and no statement stops the rollback behind the migrations already reverted.
-/

namespace Migrations
open Html Effects Effects.Transaction

/-- What the database or the connection throws is the driver's. -/
def FromDriver : Transaction.Outcome MigrationError → Prop
  | .performed => True
  | .refused error => ∃ message, error = .database message
  | .lost error => ∃ message, error = .database message

/-- The command is refused because a migration cannot be reversed. -/
def RefusedAsIrreversible {α : Type} (result : Except MigrationError α) : Prop :=
  ∃ id filename reversibility reason,
    result = .error (.notReversible id filename reversibility reason)

/-- The down script of an applied row yields a statement. -/
def Executable (scripts : List DownScript) (target : LedgerRow) : Prop :=
  ((downScriptOf scripts target.migrationId).map (·.statements)).getD [] ≠ []

/-- Of the migrations a request selects and the headers let pass, the first has no
statement to revert it by, or all the others have one. -/
def NoLateGap (runner : MigrationRunner) (request : RollbackRequest) (database : Database) :
    Prop :=
  ∀ files scripts first rest, runner.list = .ok files → runner.downScripts = .ok scripts →
    assertNoDrift runner.directory files database.selectActive = .ok () →
    selectRollbackTargets database.selectActive request = .ok (first :: rest) →
    (∀ target ∈ first :: rest, assertTarget files scripts request.allowDataLoss target = .ok ()) →
    Executable scripts first → ∀ target ∈ rest, Executable scripts target

section Refusals
variable {α : Type} {runner : MigrationRunner} {files : List MigrationFile}
  {scripts : List DownScript} {database : Database} {request : RollbackRequest}

/-- Every request is performed, or throws what the driver throws. -/
abbrev driverSpec : Program.OpSpec (Request Statement) (Result MigrationError Statement.Answer)
    (Session Database) := Program.execSpec (Transaction.exec Database.step IN_ABORTED) FromDriver

theorem driverSpec_monotone : driverSpec.Monotone := Program.execSpec_monotone _ _

/-- What holds whatever is thrown holds of what the driver throws. -/
theorem driver_of_runner {p : RunnerCalls α}
    {Q : Except MigrationError α → Session Database → Prop} {session : Session Database}
    (h : wpE runnerSpec p Q session) : wpE driverSpec p Q session :=
  Program.wp_weaken_spec driverSpec_monotone
    (fun op Q x (always : runnerSpec op Q x) outcome _ => always outcome trivial) h

theorem not_refused_ok (a : α) : ¬ RefusedAsIrreversible (.ok a : Except MigrationError α) := by
  rintro ⟨id, filename, reversibility, reason, same⟩
  cases same

theorem not_refused_database (message : Units) :
    ¬ RefusedAsIrreversible (.error (.database message) : Except MigrationError α) := by
  rintro ⟨id, filename, reversibility, reason, same⟩
  cases same

theorem not_refused_execution (id filename : Units) (index : Option Nat) (cause : Units) :
    ¬ RefusedAsIrreversible (.error (.execution id filename index cause) :
      Except MigrationError α) := by
  rintro ⟨_, _, _, _, same⟩
  cases same

/-- Between transactions, and the database as it was if the command was refused. -/
def Unharmed (database : Database) (result : Except MigrationError α)
    (session : Session Database) : Prop :=
  session.phase = .idle ∧ (RefusedAsIrreversible result → session.committed = database)

/-- A statement that leaves the database alone, as the driver carries it out. -/
theorem wpE_driver_inert {statement : Statement} {database : Database}
    {Q : Except MigrationError statement.Answer → Session Database → Prop}
    (inert : (database.step statement).2 = database)
    (answers : Q (.ok (database.step statement).1) ⟨database, .idle⟩)
    (throws : ∀ message, Q (.error (.database message)) ⟨database, .idle⟩) :
    wpE driverSpec (sql statement) Q ⟨database, .idle⟩ := by
  rintro (- | error | error) driver
  · change Q (.ok (database.step statement).1) ⟨(database.step statement).2, .idle⟩
    rw [inert]
    exact answers
  · obtain ⟨message, rfl⟩ := driver
    exact throws message
  · obtain ⟨message, rfl⟩ := driver
    change Q (.error (.database message)) ⟨(database.step statement).2, .idle⟩
    rw [inert]
    exact throws message

theorem driver_ensureLedgerTable (database : Database) :
    wpE driverSpec ensureLedgerTable (fun result session =>
      session = ⟨database, .idle⟩ ∧ ¬ RefusedAsIrreversible result) ⟨database, .idle⟩ := by
  have each : ∀ ddls : List LedgerDdl, wpE driverSpec (forM ddls fun ddl => sql (.ledgerDdl ddl))
      (fun result session => session = ⟨database, .idle⟩ ∧ ¬ RefusedAsIrreversible result)
      ⟨database, .idle⟩ := by
    intro ddls
    induction ddls with
    | nil => exact ⟨rfl, not_refused_ok _⟩
    | cons ddl rest ih =>
      rw [List.forM_cons, wpE_bind]
      exact wpE_driver_inert rfl ih fun message => ⟨rfl, not_refused_database message⟩
  exact each LEDGER_DDL

/-- A failure to release the lock hides the refusal, and does no harm. -/
theorem driver_withAdvisoryLock {work : RunnerCalls α}
    (h : wpE driverSpec work (Unharmed database) ⟨database, .idle⟩) :
    wpE driverSpec (withAdvisoryLock work) (Unharmed database) ⟨database, .idle⟩ := by
  rw [withAdvisoryLock, wpE_bind]
  refine wpE_driver_inert rfl ?_ fun message => ⟨rfl, fun _ => rfl⟩
  simp only
  rw [wpE_bind, wpE_tryCatch, wpE_bind]
  refine wpE_mono driverSpec_monotone (fun result session here => ?_) h
  obtain ⟨committed, phase⟩ := session
  obtain ⟨rfl, unharmed⟩ := here
  have unlock : ∀ result : Except MigrationError α,
      (RefusedAsIrreversible result → committed = database) →
      wpE driverSpec (do sql (.advisoryUnlock MIGRATION_LOCK_ID); liftM result : RunnerCalls α)
        (Unharmed database) ⟨committed, .idle⟩ := by
    intro result unharmed
    rw [wpE_bind]
    exact wpE_driver_inert rfl ⟨rfl, unharmed⟩ fun message =>
      ⟨rfl, fun refused => absurd refused (not_refused_database message)⟩
  cases result with
  | ok a => exact unlock (.ok a) unharmed
  | error error => exact unlock (.error error) unharmed

/-- The rollback of a migration whose script has statements: carried out or not, it is not
refused. -/
theorem wpE_rollbackTarget_executable {rolledBack : List Units} {target : LedgerRow}
    (found : Executable scripts target) (session : Session Database) :
    wpE runnerSpec (rollbackTarget files scripts rolledBack target)
      (fun result _ => ¬ RefusedAsIrreversible result) session := by
  unfold rollbackTarget
  split
  · rintro ⟨_, _, _, _, same⟩
    cases same
  · rename_i file named
    split
    · rintro ⟨_, _, _, _, same⟩
      cases same
    · rename_i script known
      rw [(byId_eq_some named).2] at known
      rw [Executable, known] at found
      rw [wpE_bind, rollbackMigration, if_neg (by simpa using found), wpE_tryCatch]
      refine Program.wp_of_forall (fun result session => ?_) _ _
      cases result with
      | ok u => exact not_refused_ok _
      | error error => exact not_refused_execution _ _ _ _

theorem wpE_rollbackTargets_executable {targets : List LedgerRow}
    (found : ∀ target ∈ targets, Executable scripts target) (rolledBack : List Units)
    (session : Session Database) :
    wpE runnerSpec (targets.foldlM (rollbackTarget files scripts) rolledBack)
      (fun result _ => ¬ RefusedAsIrreversible result) session := by
  induction targets generalizing rolledBack session with
  | nil => exact not_refused_ok _
  | cons target rest ih =>
    rw [List.foldlM_cons, wpE_bind]
    refine wpE_mono runnerSpec_monotone (fun result session notRefused => ?_)
      (wpE_rollbackTarget_executable (found target List.mem_cons_self) session)
    cases result with
    | ok rolledBack =>
      exact ih (fun other member => found other (List.mem_cons_of_mem _ member)) rolledBack session
    | error error =>
      rintro ⟨id, filename, reversibility, reason, same⟩
      cases same
      exact notRefused ⟨_, _, _, _, rfl⟩

/-- The selected migrations in their turn. -/
theorem driver_rollbackTargets {targets : List LedgerRow}
    (late : ∀ first rest, targets = first :: rest → Executable scripts first →
      ∀ target ∈ rest, Executable scripts target) (database : Database) :
    wpE driverSpec (targets.foldlM (rollbackTarget files scripts) []) (Unharmed database)
      ⟨database, .idle⟩ := by
  apply driver_of_runner
  have idle := wpE_foldlM (fun rolledBack target database =>
    (wpE_rollbackTarget rolledBack target database : wpE runnerSpec
      (rollbackTarget files scripts rolledBack target) _ _)) [] targets database
  cases targets with
  | nil => exact ⟨rfl, fun _ => rfl⟩
  | cons first rest =>
    by_cases found : Executable scripts first
    · have all : ∀ target ∈ first :: rest, Executable scripts target := by
        intro target member
        rcases List.mem_cons.mp member with rfl | later
        · exact found
        · exact late first rest rfl found target later
      refine wpE_mono runnerSpec_monotone (fun result session both => ?_)
        (Program.wp_and idle (wpE_rollbackTargets_executable all [] _))
      exact ⟨both.1.1, fun refused => absurd refused both.2⟩
    · -- The first turn throws before it sends a request.
      have thrown : ∀ error : MigrationError, Unharmed (α := List Units) database (.error error)
          ⟨database, .idle⟩ := fun error => ⟨rfl, fun _ => rfl⟩
      rw [List.foldlM_cons, wpE_bind, rollbackTarget]
      split
      · exact thrown _
      · rename_i file named
        split
        · exact thrown _
        · rename_i script known
          rw [(byId_eq_some named).2] at known
          have none : script.statements.isEmpty := by simpa [Executable, known] using found
          rw [rollbackMigration, if_pos none]
          exact thrown _

theorem driver_down (late : NoLateGap runner request database) :
    wpE driverSpec (runner.down request) (Unharmed database) ⟨database, .idle⟩ := by
  have thrown : ∀ error : MigrationError, Unharmed (α := List Units) database (.error error)
      ⟨database, .idle⟩ := fun error => ⟨rfl, fun _ => rfl⟩
  unfold MigrationRunner.down
  rw [wpE_bind, wpE_liftM]
  cases found : runner.list with
  | error error => exact thrown error
  | ok files =>
    simp only
    rw [wpE_bind, wpE_liftM]
    cases read : runner.downScripts with
    | error error => exact thrown error
    | ok scripts =>
      simp only
      rw [wpE_bind]
      refine wpE_mono driverSpec_monotone (fun result session here => ?_)
        (driver_ensureLedgerTable database)
      obtain ⟨rfl, notRefused⟩ := here
      cases result with
      | error error => exact thrown error
      | ok u =>
        apply driver_withAdvisoryLock
        rw [wpE_bind]
        refine wpE_driver_inert rfl ?_ fun message => thrown _
        simp only
        rw [wpE_bind, wpE_liftM]
        cases checked : assertNoDrift runner.directory files
            (Database.step database .selectActive).1 with
        | error error => exact thrown error
        | ok u =>
          simp only
          split
          · exact ⟨rfl, fun _ => rfl⟩
          · rw [wpE_bind, wpE_liftM]
            cases chosen : selectRollbackTargets (Database.step database .selectActive).1
                request with
            | error error => exact thrown error
            | ok targets =>
              simp only
              rw [wpE_bind, wpE_liftM]
              cases passed : targets.forM (assertTarget files scripts request.allowDataLoss) with
              | error error => exact thrown error
              | ok u =>
                refine driver_rollbackTargets (fun first rest same => ?_) database
                exact late files scripts first rest found read checked (same ▸ chosen)
                  (same ▸ forM_eq_ok passed)

/-- What a target that passes has. -/
theorem assertTarget_eq_ok {allowDataLoss : Bool} {target : LedgerRow}
    (h : assertTarget files scripts allowDataLoss target = .ok ()) :
    ∃ file script, byId files target.migrationId = some file ∧ file.id = target.migrationId ∧
      downScriptOf scripts target.migrationId = some script := by
  unfold assertTarget at h
  cases named : byId files target.migrationId with
  | none =>
    rw [named] at h
    cases h
  | some file =>
    rw [named] at h
    simp only at h
    have same := (byId_eq_some named).2
    cases known : downScriptOf scripts file.id with
    | none =>
      rw [known] at h
      cases h
    | some script => exact ⟨file, script, rfl, same, same ▸ known⟩

/-- The first script without a statement stops the loop, and what was executed before
it stays. -/
theorem performed_rollbackTargets {allowDataLoss : Bool} {targets : List LedgerRow}
    (pass : ∀ target ∈ targets, assertTarget files scripts allowDataLoss target = .ok ())
    (gap : ∃ target ∈ targets, ¬ Executable scripts target) (rolledBack : List Units)
    (database : Database) :
    wpE performing (targets.foldlM (rollbackTarget files scripts) rolledBack)
      (Ended fun result after => RefusedAsIrreversible result ∧
        ∃ changes, after.history = database.history ++ changes ∧
          ∀ first ∈ targets.head?, Executable scripts first → changes ≠ []) ⟨database, .idle⟩ := by
  induction targets generalizing rolledBack database with
  | nil =>
    obtain ⟨target, member, -⟩ := gap
    cases member
  | cons target rest ih =>
    obtain ⟨file, script, named, same, known⟩ := assertTarget_eq_ok (pass target List.mem_cons_self)
    rw [List.foldlM_cons, wpE_bind, rollbackTarget, named]
    simp only [same, known]
    by_cases found : Executable scripts target
    · have later : ∃ other ∈ rest, ¬ Executable scripts other := by
        obtain ⟨other, member, none⟩ := gap
        rcases List.mem_cons.mp member with rfl | later
        · exact absurd found none
        · exact ⟨other, later, none⟩
      have some' : ¬ script.statements.isEmpty := by simpa [Executable, known] using found
      rw [wpE_bind, rollbackMigration, if_neg some']
      refine wpE_mono performing_monotone (fun result session here => ?_)
        (wpE_performed_transaction_forM _ _ database)
      obtain ⟨⟨u, rfl⟩, rfl⟩ := here
      rw [database.foldl_rollback known]
      simp only [wpE_pure]
      refine wpE_mono performing_monotone (fun result session ended => ?_)
        (ih (fun other member => pass other (List.mem_cons_of_mem _ member)) later _ _)
      obtain ⟨after, rfl, refused, changes, history, -⟩ := ended
      refine ⟨after, rfl, refused, revertedChanges scripts target.migrationId ++ changes, ?_, ?_⟩
      · rw [history, Database.reverted, List.append_assoc]
      · intro first _ _
        simp [revertedChanges]
    · have none : script.statements.isEmpty := by simpa [Executable, known] using found
      rw [wpE_bind, rollbackMigration, if_pos none]
      refine ⟨database, rfl, ⟨_, _, _, _, rfl⟩, [], by simp, fun first head found' => ?_⟩
      obtain rfl : target = first := by simpa using head
      exact absurd found' found

/-- A late gap, on a database that performs every request. -/
theorem performed_down {first : LedgerRow} {rest : List LedgerRow} (found : runner.list = .ok files)
    (read : runner.downScripts = .ok scripts)
    (checked : assertNoDrift runner.directory files database.selectActive = .ok ())
    (chosen : selectRollbackTargets database.selectActive request = .ok (first :: rest))
    (pass : ∀ target ∈ first :: rest,
      assertTarget files scripts request.allowDataLoss target = .ok ())
    (reverts : Executable scripts first) (gap : ∃ target ∈ rest, ¬ Executable scripts target) :
    wpE performing (runner.down request)
      (Ended fun result after => RefusedAsIrreversible result ∧ after ≠ database)
      ⟨database, .idle⟩ := by
  have applied : database.selectActive.isEmpty = false := by
    obtain ⟨n, newest⟩ := selectRollbackTargets_eq_ok chosen
    rw [← Bool.not_eq_true, List.isEmpty_iff]
    intro empty
    rw [empty] at newest
    simp [orderedRows] at newest
  have all : (first :: rest).forM (assertTarget files scripts request.allowDataLoss) = .ok () :=
    forM_ok_iff.mpr pass
  unfold MigrationRunner.down
  rw [found, wpE_bind, wpE_liftM]
  simp only
  rw [read, wpE_bind, wpE_liftM]
  simp only
  rw [wpE_bind]
  refine wpE_mono performing_monotone (fun result session here => ?_)
    (performed_ensureLedgerTable database)
  obtain ⟨⟨u, rfl⟩, rfl⟩ := here
  apply performed_withAdvisoryLock
  rw [wpE_bind]
  apply wpE_performed
  simp only [Database.step]
  rw [checked, wpE_bind, wpE_liftM]
  simp only [applied, Bool.false_eq_true, if_false]
  rw [chosen, wpE_bind, wpE_liftM]
  simp only
  rw [all, wpE_bind, wpE_liftM]
  obtain ⟨target, member, none⟩ := gap
  refine wpE_mono performing_monotone (fun result session ended => ?_)
    (performed_rollbackTargets pass ⟨target, List.mem_cons_of_mem _ member, none⟩ [] database)
  obtain ⟨after, rfl, refused, changes, history, grows⟩ := ended
  refine ⟨after, rfl, refused, ?_⟩
  rintro rfl
  exact grows first rfl reverts (List.append_right_eq_self.mp history.symm)

end Refusals

/-- A command whose requests meet these outcomes. -/
def Database.sends {α : Type} (database : Database) (command : RunnerCalls α)
    (outcomes : Nat → Transaction.Outcome MigrationError) :
    Except MigrationError α × Session Database :=
  command.run.eval (Transaction.exec Database.step IN_ABORTED) outcomes ⟨database, .idle⟩

/-- A rollback that is refused because a migration cannot be reversed leaves schema and
ledger as they were, whatever the driver throws, just when no selected migration behind
the first is the one without a statement. -/
theorem refused_unharmed_iff (runner : MigrationRunner) (request : RollbackRequest)
    (database : Database) :
    (∀ outcomes, (∀ n, FromDriver (outcomes n)) →
      RefusedAsIrreversible (database.sends (runner.down request) outcomes).1 →
      (database.sends (runner.down request) outcomes).2.committed = database) ↔
    NoLateGap runner request database := by
  constructor
  · intro unharmed files scripts first rest found read checked chosen pass reverts target member
    by_contra none
    have ended := performs_of_wpE
      (performed_down found read checked chosen pass reverts ⟨target, member, none⟩)
    exact ended.2 (unharmed (fun _ => .performed) (fun _ => trivial) ended.1)
  · intro late outcomes driver refused
    exact (Program.eval_of_wp (driver_down late) driver).2 refused

/-- Two files, of which the first has a down script that is only a header. -/
def headerOnly : MigrationRunner where
  directory := {
    path := units "migrations"
    entries := [units "0000_a.sql", units "0001_b.sql"]
    readFile := .ok
    splitSqlStatements := fun content => .ok [content]
    computeMigrationChecksum := id }
  downScripts := .ok [
    ⟨units "0000_a", units "0000_a.down.sql", .reversible, .none, units "Nothing to undo.", []⟩,
    ⟨units "0001_b", units "0001_b.down.sql", .reversible, .none, units "Drops b.",
      [units "DROP TABLE b"]⟩]

/-- Both are applied. -/
def bothApplied : Database := emptyDatabase.after headerOnly ⟨.up, fun _ => .performed⟩

/-- A rollback of both is refused at the first, after the second was dropped. -/
theorem refused_after_drop :
    RefusedAsIrreversible
        (bothApplied.sends (headerOnly.down ⟨some 2, none, false⟩) fun _ => .performed).1 ∧
      bothApplied.ledger.activeIds = [units "0000_a", units "0001_b"] ∧
      (bothApplied.sends (headerOnly.down ⟨some 2, none, false⟩)
        fun _ => .performed).2.committed.ledger.activeIds = [units "0000_a"] := by
  refine ⟨⟨units "0000_a", units "0000_a.down.sql", units "irreversible",
    units "its down script declares reversibility but contains no executable statement.", ?_⟩, ?_, ?_⟩
  · decide
  · decide
  · decide

end Migrations
