import Hakawi.Migrations.Runner

/-!
# What a run does to the database

Each file is applied or reverted as a whole or not at all, whatever becomes of each
request. The last two rules say so of a whole run: nothing is applied, or the first
passes of its loop are.
-/

namespace Migrations
open Html Effects Effects.Transaction

def appliedChanges (file : MigrationFile) : List Change :=
  file.statements.map .executed ++ [.applied file.id]

def revertedChanges (scripts : List DownScript) (id : Units) : List Change :=
  (((downScriptOf scripts id).map (·.statements)).getD []).map .executed ++ [.reverted id]

namespace Database

/-- The effect of a file's transaction. -/
def applied (database : Database) (file : MigrationFile) : Database :=
  { database with
    ledger := database.ledger.upsert
      ⟨file.id, file.filename, file.checksum, file.statements.length⟩
    history := database.history ++ appliedChanges file }

/-- The effect of a down script's transaction. -/
def reverted (scripts : List DownScript) (database : Database) (id : Units) : Database :=
  { database with
    ledger := database.ledger.markRolledBack id
    history := database.history ++ revertedChanges scripts id }

/-- The two timeouts change nothing, and the statements of a script are recorded. -/
theorem foldl_runScript (database : Database) (statements : List Units)
    (ledgerStatement : Statement) :
    (runScript statements ledgerStatement).foldl (fun working op => (step working op).2) database =
      (step { database with history := database.history ++ statements.map .executed }
        ledgerStatement).2 := by
  have scripts : ∀ (statements : List Units) (database : Database),
      (statements.map Statement.script).foldl (fun working op => (step working op).2) database =
        { database with history := database.history ++ statements.map .executed } := by
    intro statements
    induction statements with
    | nil => simp
    | cons statement rest ih =>
      intro database
      rw [List.map_cons, List.foldl_cons, ih]
      simp [step, record]
  simp only [runScript, List.foldl_append, List.foldl_cons, List.foldl_nil, scripts]
  rfl

/-- The transaction of a migration file. -/
theorem foldl_applyFile (database : Database) (file : MigrationFile) :
    (runScript file.statements (.writeLedgerRow
        ⟨file.id, file.filename, file.checksum, file.statements.length⟩)).foldl
      (fun working op => (step working op).2) database = database.applied file := by
  rw [foldl_runScript]
  simp [step, record, applied, appliedChanges]

/-- The transaction of a down script. -/
theorem foldl_rollback {scripts : List DownScript} {script : DownScript} {id : Units}
    (found : downScriptOf scripts id = some script) (database : Database) :
    (runScript script.statements (.markLedgerRowRolledBack id)).foldl
      (fun working op => (step working op).2) database = database.reverted scripts id := by
  rw [foldl_runScript]
  simp [step, record, reverted, revertedChanges, found]

end Database

section Statements
variable {α : Type}

/-- What every request may become. -/
abbrev runnerSpec : Program.OpSpec (Request Statement) (Result MigrationError Statement.Answer)
    (Session Database) := Transaction.spec Database.step IN_ABORTED

theorem runnerSpec_monotone : runnerSpec.Monotone := spec_monotone Database.step IN_ABORTED

/-- Between transactions, the database as `P` says. -/
def Settled (P : Database → Prop) (session : Session Database) : Prop :=
  session.phase = .idle ∧ P session.committed

theorem Settled.intro {P : Database → Prop} {session : Session Database}
    (settled : Settled P session) :
    ∃ database, session = ⟨database, .idle⟩ ∧ P database := by
  obtain ⟨committed, phase⟩ := session
  obtain ⟨rfl, holds⟩ := settled
  exact ⟨committed, rfl, holds⟩

theorem wpE_of_settled {P : Database → Prop} {p : RunnerCalls α}
    {Q : Except MigrationError α → Session Database → Prop} {session : Session Database}
    (settled : Settled P session)
    (each : ∀ database, P database → wpE runnerSpec p Q ⟨database, .idle⟩) :
    wpE runnerSpec p Q session := by
  obtain ⟨database, rfl, holds⟩ := settled.intro
  exact each database holds

theorem wpE_applyFile (file : MigrationFile) (database : Database) :
    wpE runnerSpec (applyFile file) (AllOrNothing database (database.applied file))
      ⟨database, .idle⟩ := by
  rw [← database.foldl_applyFile file]
  exact wpE_transaction_forM _ _ database

theorem wpE_rollbackMigration {row : LedgerRow} {file : MigrationFile} {script : DownScript}
    {scripts : List DownScript} (found : downScriptOf scripts row.migrationId = some script)
    (database : Database) :
    wpE runnerSpec (rollbackMigration row file script)
      (AllOrNothing database (database.reverted scripts row.migrationId)) ⟨database, .idle⟩ := by
  unfold rollbackMigration
  split
  · exact ⟨rfl, Or.inl rfl⟩
  · rw [← database.foldl_rollback found]
    exact wpE_transaction_forM _ _ database

/-- What holds throughout `work` holds throughout the section under the lock. -/
theorem wpE_withAdvisoryLock {work : RunnerCalls α} {P : Database → Prop} {database : Database}
    (holds : P database)
    (throughout : wpE runnerSpec work (fun _ session => Settled P session) ⟨database, .idle⟩) :
    wpE runnerSpec (withAdvisoryLock work) (fun _ session => Settled P session)
      ⟨database, .idle⟩ := by
  rw [withAdvisoryLock, wpE_bind]
  refine wpE_execute_inert rfl ?_ fun error => ⟨rfl, holds⟩
  simp only
  rw [wpE_bind, wpE_tryCatch, wpE_bind]
  refine wpE_mono runnerSpec_monotone (fun result session settled => ?_) throughout
  have unlock : ∀ result : Except MigrationError α,
      wpE runnerSpec (do sql (.advisoryUnlock MIGRATION_LOCK_ID); liftM result : RunnerCalls α)
        (fun _ session => Settled P session) session := by
    intro result
    refine wpE_of_settled settled fun database holds => ?_
    rw [wpE_bind]
    exact wpE_execute_inert rfl ⟨rfl, holds⟩ fun error => ⟨rfl, holds⟩
  cases result with
  | ok a => exact unlock (.ok a)
  | error error => exact unlock (.error error)

theorem wpE_ensureLedgerTable (database : Database) :
    wpE runnerSpec ensureLedgerTable (fun _ session => Settled (· = database) session)
      ⟨database, .idle⟩ := by
  refine wpE_forM_invariant runnerSpec_monotone (fun ddl session settled => ?_) LEDGER_DDL
    ⟨rfl, rfl⟩
  exact wpE_of_settled settled fun current same =>
    wpE_execute_inert rfl ⟨rfl, same⟩ fun error => ⟨rfl, same⟩

end Statements

/-- The same migrations are applied, and nothing was executed. -/
def SameApplied (before after : Database) : Prop :=
  (∀ id, id ∈ after.ledger.activeIds ↔ id ∈ before.ledger.activeIds) ∧
    after.history = before.history

theorem SameApplied.refl (database : Database) : SameApplied database database :=
  ⟨fun _ => Iff.rfl, rfl⟩

theorem wpE_adoptLegacyRows (files : List MigrationFile) (database : Database) :
    wpE runnerSpec (adoptLegacyRows files)
      (fun _ session => Settled (SameApplied database) session) ⟨database, .idle⟩ := by
  have unchanged : Settled (SameApplied database) ⟨database, .idle⟩ :=
    ⟨rfl, fun _ => Iff.rfl, rfl⟩
  have adopt : wpE runnerSpec (sql .selectActive >>= fun active =>
        active.foldlM (adoptLegacyRow files) [] : RunnerCalls (List Units))
      (fun _ session => Settled (SameApplied database) session) ⟨database, .idle⟩ := by
    rw [wpE_bind]
    refine wpE_execute_inert rfl ?_ fun error => unchanged
    refine wpE_foldlM_invariant runnerSpec_monotone ?_ _ [] unchanged
    intro adopted row session settled
    refine wpE_of_settled settled fun after same => ?_
    unfold adoptLegacyRow
    split
    · exact ⟨rfl, same⟩
    · split
      · exact ⟨rfl, same⟩
      · rename_i file found
        have after' : SameApplied database (after.step (.adoptLegacyChecksum row.migrationId
            file.checksum file.filename)).2 :=
          ⟨fun id => Ledger.mem_activeIds_adoptLegacyChecksum.trans (same.1 id), same.2⟩
        rw [wpE_bind]
        exact wpE_execute_idle ⟨rfl, after'⟩ (fun error => ⟨rfl, same⟩) fun error => ⟨rfl, after'⟩
  rw [adoptLegacyRows, backfillLegacyAppliedAt, wpE_bind, wpE_bind]
  refine wpE_execute_inert rfl ?_ fun error => unchanged
  simp only
  split
  · rw [wpE_bind]
    exact wpE_execute_inert rfl adopt fun error => unchanged
  · exact adopt

section Commands
variable {runner : MigrationRunner} {files : List MigrationFile} {active : List LedgerRow}
  {scripts : List DownScript} {P : Database → Prop} {database : Database}

/-- One pass of the loop of `up`. -/
def passed (active : List LedgerRow) (database : Database) (file : MigrationFile) : Database :=
  if hasId active file.id then database else database.applied file

theorem wpE_applyPending (result : MigrationRunResult) (file : MigrationFile)
    (database : Database) :
    wpE runnerSpec (applyPending active result file)
      (AllOrNothing database (passed active database file)) ⟨database, .idle⟩ := by
  unfold applyPending passed
  split
  · exact ⟨rfl, rfl⟩
  · exact AllOrNothing.bind_return _ (wpE_applyFile file database)

theorem wpE_up (found : runner.list = .ok files)
    (still : ∀ after, SameApplied database after → P after)
    (moved : ∀ after, SameApplied database after →
      assertNoDrift runner.directory files after.selectActive = .ok () →
      ∀ m ≤ files.length, P ((files.take m).foldl (passed after.selectActive) after)) :
    wpE runnerSpec runner.up (fun _ session => Settled P session) ⟨database, .idle⟩ := by
  have same := SameApplied.refl database
  unfold MigrationRunner.up
  rw [found, wpE_bind, wpE_liftM]
  simp only
  rw [wpE_bind]
  refine wpE_mono runnerSpec_monotone (fun result session settled => ?_)
    (wpE_ensureLedgerTable database)
  cases result with
  | error error => exact ⟨settled.1, settled.2 ▸ still _ same⟩
  | ok u =>
    refine wpE_of_settled settled fun current (unchanged : current = database) => ?_
    rw [unchanged]
    refine wpE_withAdvisoryLock (still _ same) ?_
    rw [wpE_bind]
    refine wpE_mono runnerSpec_monotone (fun result session settled => ?_)
      (wpE_adoptLegacyRows files database)
    cases result with
    | error error => exact ⟨settled.1, still _ settled.2⟩
    | ok adopted =>
      refine wpE_of_settled settled fun after same => ?_
      rw [wpE_bind]
      refine wpE_execute_inert rfl ?_ fun error => ⟨rfl, still _ same⟩
      simp only
      rw [wpE_bind, wpE_liftM]
      cases checked : assertNoDrift runner.directory files (Database.step after .selectActive).1 with
      | error error => exact ⟨rfl, still _ same⟩
      | ok u =>
        refine wpE_mono runnerSpec_monotone (fun result session here => ⟨here.1, ?_⟩)
          (wpE_foldlM wpE_applyPending _ files after)
        obtain ⟨m, within, reached⟩ := here.2
        exact reached ▸ moved after same checked m within

theorem byId_eq_some {id : Units} {file : MigrationFile} (h : byId files id = some file) :
    file ∈ files ∧ file.id = id :=
  ⟨List.mem_reverse.mp (List.mem_of_find?_eq_some h), by simpa using List.find?_some h⟩

theorem wpE_rollbackTarget (rolledBack : List Units) (target : LedgerRow) (database : Database) :
    wpE runnerSpec (rollbackTarget files scripts rolledBack target)
      (AllOrNothing database (database.reverted scripts target.migrationId))
      ⟨database, .idle⟩ := by
  unfold rollbackTarget
  split
  · exact ⟨rfl, Or.inl rfl⟩
  · rename_i file named
    split
    · exact ⟨rfl, Or.inl rfl⟩
    · rename_i script found
      rw [(byId_eq_some named).2] at found
      exact AllOrNothing.bind_return _ (wpE_rollbackMigration found database)

theorem wpE_down (found : runner.list = .ok files) (request : RollbackRequest)
    (still : P database)
    (moved : assertNoDrift runner.directory files database.selectActive = .ok () →
      ∀ targets, selectRollbackTargets database.selectActive request = .ok targets → ∀ m,
        P (((targets.take m).map (·.migrationId)).foldl
          (Database.reverted (runner.downScripts.toOption.getD [])) database)) :
    wpE runnerSpec (runner.down request) (fun _ session => Settled P session)
      ⟨database, .idle⟩ := by
  unfold MigrationRunner.down
  rw [found, wpE_bind, wpE_liftM]
  simp only
  rw [wpE_bind, wpE_liftM]
  cases downScripts : runner.downScripts with
  | error error => exact ⟨rfl, still⟩
  | ok scripts =>
    rw [downScripts] at moved
    simp only
    rw [wpE_bind]
    refine wpE_mono runnerSpec_monotone (fun result session settled => ?_)
      (wpE_ensureLedgerTable database)
    cases result with
    | error error => exact ⟨settled.1, settled.2 ▸ still⟩
    | ok u =>
      refine wpE_of_settled settled fun current (unchanged : current = database) => ?_
      rw [unchanged]
      refine wpE_withAdvisoryLock still ?_
      rw [wpE_bind]
      refine wpE_execute_inert rfl ?_ fun error => ⟨rfl, still⟩
      simp only
      rw [wpE_bind, wpE_liftM]
      cases checked : assertNoDrift runner.directory files
          (Database.step database .selectActive).1 with
      | error error => exact ⟨rfl, still⟩
      | ok u =>
        simp only
        split
        · exact ⟨rfl, still⟩
        · rw [wpE_bind, wpE_liftM]
          cases chosen : selectRollbackTargets (Database.step database .selectActive).1 request with
          | error error => exact ⟨rfl, still⟩
          | ok targets =>
            simp only
            rw [wpE_bind, wpE_liftM]
            cases targets.forM (assertTarget files scripts request.allowDataLoss) with
            | error error => exact ⟨rfl, still⟩
            | ok u =>
              refine wpE_mono runnerSpec_monotone (fun result session here => ⟨here.1, ?_⟩)
                (wpE_foldlM wpE_rollbackTarget [] targets database)
              obtain ⟨m, -, reached⟩ := here.2
              have part := moved checked targets chosen m
              rw [List.foldl_map] at part
              exact reached ▸ part

/-- One run, its result apart. -/
theorem settled_after {run : Run} (up : run.command = .up →
      wpE runnerSpec runner.up (fun _ session => Settled P session) ⟨database, .idle⟩)
    (down : ∀ request, run.command = .down request →
      wpE runnerSpec (runner.down request) (fun _ session => Settled P session)
        ⟨database, .idle⟩) : P (database.after runner run) := by
  have forget : ∀ {α : Type} {p : RunnerCalls α},
      wpE runnerSpec p (fun _ session => Settled P session) ⟨database, .idle⟩ →
      wpE runnerSpec (do let _ ← p) (fun _ session => Settled P session) ⟨database, .idle⟩ := by
    intro α p h
    rw [wpE_bind]
    refine wpE_mono runnerSpec_monotone (fun result session settled => ?_) h
    cases result with
    | ok a => exact settled
    | error error => exact settled
  obtain ⟨command, outcomes⟩ := run
  cases command with
  | up => exact (Program.eval_of_wp (forget (up rfl)) (fun _ => trivial)).2
  | down request => exact (Program.eval_of_wp (forget (down request rfl)) (fun _ => trivial)).2

end Commands
end Migrations
