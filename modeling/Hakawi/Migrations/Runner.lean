import Hakawi.Migrations.Ledger

/-!
# The migration runner

`up` applies the pending files and `down` reverts applied ones, each file in a
transaction of its own that also writes the file's ledger row.
-/

namespace Migrations
open Html Effects Effects.Transaction

/-- A method of the runner: it sends statements, and returns or throws. -/
abbrev RunnerCalls (α : Type) : Type := Calls Statement.Answer MigrationError α

/-- `this.database.execute(…)` -/
abbrev sql (statement : Statement) : RunnerCalls statement.Answer := execute statement

inductive MigrationReversibility where
  | reversible
  | dataLoss
  | irreversible
  deriving DecidableEq, Repr

inductive MigrationDataLoss where
  | none
  | columns
  | rows
  deriving DecidableEq, Repr

def MigrationDataLoss.text : MigrationDataLoss → Units
  | none => units "none"
  | columns => units "columns"
  | rows => units "rows"

structure DownScript where
  id : Units
  filename : Units
  reversibility : MigrationReversibility
  dataLoss : MigrationDataLoss
  reason : Units
  statements : List Units
  deriving DecidableEq, Repr

structure RollbackRequest where
  steps : Option Int
  toId : Option Units
  allowDataLoss : Bool
  deriving DecidableEq, Repr

structure MigrationRunResult where
  applied : List Units := []
  skipped : List Units := []
  adoptedLegacyChecksums : List Units := []
  deriving DecidableEq, Repr

structure MigrationRunner where
  directory : MigrationsDirectory
  /-- `discoverDownScripts(this.migrationsDir)` -/
  downScripts : Except MigrationError (List DownScript)

def LEGACY_CHECKSUM : Units := []

def MIGRATION_LOCK_ID : Nat := 0x48414b41
def MIGRATION_LOCK_TIMEOUT : String := "10s"
def MIGRATION_STATEMENT_TIMEOUT : String := "5min"

/-- `new Map(files.map((file) => [file.id, file]))`, in which the last of an id counts. -/
def byId (files : List MigrationFile) (id : Units) : Option MigrationFile :=
  files.reverse.find? (·.id = id)

def downScriptOf (scripts : List DownScript) (id : Units) : Option DownScript :=
  scripts.find? (·.id = id)

def hasId (rows : List LedgerRow) (id : Units) : Bool := rows.any (·.migrationId = id)

section Checks
variable (directory : MigrationsDirectory) (files : List MigrationFile) (active : List LedgerRow)

def assertRowMatches (row : LedgerRow) : Except MigrationError Unit :=
  match byId files row.migrationId with
  | none => throw (.ledgerDrift (units "Migration " ++ row.migrationId ++
      units " is recorded as applied but " ++
      (if row.filename.isEmpty then units "its .sql file" else row.filename) ++
      units " is missing from " ++ directory.path ++
      units (". An applied migration must never be deleted; " ++
        "restore the file from version control.")) [row.migrationId])
  | some file =>
    if row.checksum ≠ LEGACY_CHECKSUM ∧ row.checksum ≠ file.checksum then
      throw (.checksumMismatch row.migrationId file.filename row.checksum file.checksum)
    else return ()

/-- `-1` when no file is applied. -/
def highestAppliedIndex : Int :=
  files.zipIdx.foldl (fun highest (file, index) => if hasId active file.id then index else highest)
    (-1)

/-- The files below a position that are pending. -/
def pendingBelow (index : Int) : List MigrationFile :=
  (files.take index.toNat).filter fun file => !hasId active file.id

def assertNoDrift : Except MigrationError Unit := do
  active.forM (assertRowMatches directory files)
  let highest := highestAppliedIndex files active
  if highest < 0 then return ()
  match pendingBelow files active highest with
  | [] => return ()
  | file :: _ =>
    let last := files[highest.toNat]?.map (·.id)
    throw (.ledgerDrift (units "Migration " ++ file.id ++
      units " is pending while a later migration (" ++ last.getD (units "a later one") ++
      units ") is already applied. Applied migrations must be a prefix of the file order: " ++
      number active.length ++ units " of " ++ number files.length ++
      units " file(s) are recorded and the last applied one is " ++ last.getD (units "unknown") ++
      units (". Migrations must be applied in order; add the missing migration to the ledger " ++
        "only if it was genuinely executed.")) [file.id])

end Checks

/-- `[…active].sort(…)` -/
def orderedRows (active : List LedgerRow) : List LedgerRow :=
  active.insertionSort fun left right => NotAfter left.migrationId right.migrationId

def joinIds (ids : List Units) : Units := (ids.intersperse (units ", ")).flatten

def selectRollbackTargets (active : List LedgerRow) (request : RollbackRequest) :
    Except MigrationError (List LedgerRow) := do
  let ordered := orderedRows active
  match request.toId with
  | some toId =>
    let _ ← parseMigrationId (toId ++ SQL_SUFFIX)
    match ordered.findIdx? (·.migrationId = toId) with
    | none => throw (.structureError (units "Cannot roll back to \"" ++ toId ++
        units "\": it is not recorded as applied. Applied migrations: " ++
        joinIds (ordered.map (·.migrationId))) (some toId))
    | some index => return (ordered.drop (index + 1)).reverse
  | none =>
    let steps := request.steps.getD 1
    if steps > ordered.length then
      throw (.structureError (units "Cannot roll back " ++ number steps ++
        units " migration(s): only " ++ number ordered.length ++ units " are applied.") none)
    else return (ordered.drop (ordered.length - steps).toNat).reverse

def assertReversible (file : MigrationFile) (script : Option DownScript) (allowDataLoss : Bool) :
    Except MigrationError Unit :=
  match script with
  | none => throw (.notReversible file.id file.filename (units "irreversible")
      (units "no down script exists at migrations/down/" ++ file.id ++ units ".down.sql."))
  | some script => match script.reversibility with
    | .irreversible =>
      throw (.notReversible file.id file.filename (units "irreversible") script.reason)
    | .dataLoss =>
      if allowDataLoss then return ()
      else throw (.notReversible file.id file.filename (units "data-loss")
        (units "its down script destroys data (" ++ script.dataLoss.text ++ units "): " ++
          script.reason ++ units " Re-run with --allow-data-loss to accept the loss."))
    | .reversible => return ()

def assertTarget (files : List MigrationFile) (scripts : List DownScript) (allowDataLoss : Bool)
    (target : LedgerRow) : Except MigrationError Unit :=
  match byId files target.migrationId with
  | none => throw (.ledgerDrift (units "Cannot roll back " ++ target.migrationId ++
      units ": it is recorded as applied but its .sql file is missing.") [target.migrationId])
  | some file => assertReversible file (downScriptOf scripts file.id) allowDataLoss

def ensureLedgerTable : RunnerCalls Unit :=
  forM LEDGER_DDL fun ddl => sql (.ledgerDdl ddl)

def backfillLegacyAppliedAt : RunnerCalls Bool := do
  let present ← sql .legacyColumn
  if present then
    sql .backfillLegacyAppliedAt
    return true
  else return false

/-- The lock is released whether `work` returns or throws. -/
def withAdvisoryLock {α : Type} (work : RunnerCalls α) : RunnerCalls α := do
  sql (.advisoryLock MIGRATION_LOCK_ID)
  let result ← tryCatch (do return .ok (← work)) fun error => return .error error
  sql (.advisoryUnlock MIGRATION_LOCK_ID)
  liftM (result : Except MigrationError α)

/-- The body of a file's transaction: its statements under the two timeouts, then the
statement that writes its ledger row. -/
def runScript (statements : List Units) (ledgerStatement : Statement) : List Statement :=
  [.setLocal "lock_timeout" MIGRATION_LOCK_TIMEOUT,
    .setLocal "statement_timeout" MIGRATION_STATEMENT_TIMEOUT] ++
    statements.map .script ++ [ledgerStatement]

def executeAll (statements : List Statement) : RunnerCalls Unit :=
  forM statements fun statement => do let _ ← sql statement

def applyFile (file : MigrationFile) : RunnerCalls Unit :=
  tryCatch
    (transaction (executeAll (runScript file.statements
      (.writeLedgerRow ⟨file.id, file.filename, file.checksum, file.statements.length⟩))))
    fun error => throw (.execution file.id file.filename none error.message)

def rollbackMigration (row : LedgerRow) (file : MigrationFile) (script : DownScript) :
    RunnerCalls Unit :=
  if script.statements.isEmpty then
    throw (.notReversible file.id script.filename (units "irreversible") (units
      "its down script declares reversibility but contains no executable statement."))
  else
    tryCatch
      (transaction (executeAll (runScript script.statements
        (.markLedgerRowRolledBack row.migrationId))))
      fun error => throw (.execution file.id script.filename none error.message)

def adoptLegacyRow (files : List MigrationFile) (adopted : List Units) (row : LedgerRow) :
    RunnerCalls (List Units) :=
  if row.checksum ≠ LEGACY_CHECKSUM then return adopted
  else match byId files row.migrationId with
    | none => return adopted
    | some file => do
      sql (.adoptLegacyChecksum row.migrationId file.checksum file.filename)
      return adopted ++ [row.migrationId]

def adoptLegacyRows (files : List MigrationFile) : RunnerCalls (List Units) := do
  let _ ← backfillLegacyAppliedAt
  let active ← sql .selectActive
  active.foldlM (adoptLegacyRow files) []

/-- One pass of the loop of `up`. -/
def applyPending (active : List LedgerRow) (result : MigrationRunResult) (file : MigrationFile) :
    RunnerCalls MigrationRunResult :=
  if hasId active file.id then return { result with skipped := result.skipped ++ [file.id] }
  else do
    applyFile file
    return { result with applied := result.applied ++ [file.id] }

/-- One pass of the second loop of `down`. -/
def rollbackTarget (files : List MigrationFile) (scripts : List DownScript)
    (rolledBack : List Units) (target : LedgerRow) : RunnerCalls (List Units) :=
  match byId files target.migrationId with
  | none => throw .typeError
  | some file => match downScriptOf scripts file.id with
    | none => throw .typeError
    | some script => do
      rollbackMigration target file script
      return rolledBack ++ [file.id]

namespace MigrationRunner
variable (runner : MigrationRunner)

def list : Except MigrationError (List MigrationFile) := discoverMigrationFiles runner.directory

def up : RunnerCalls MigrationRunResult := do
  let files ← liftM runner.list
  ensureLedgerTable
  withAdvisoryLock do
    let adoptedLegacyChecksums ← adoptLegacyRows files
    let active ← sql .selectActive
    liftM (assertNoDrift runner.directory files active)
    files.foldlM (applyPending active) { adoptedLegacyChecksums := adoptedLegacyChecksums }

def down (request : RollbackRequest) : RunnerCalls (List Units) := do
  let files ← liftM runner.list
  let scripts ← liftM runner.downScripts
  ensureLedgerTable
  withAdvisoryLock do
    let active ← sql .selectActive
    liftM (assertNoDrift runner.directory files active)
    if active.isEmpty then return []
    else
      let targets ← liftM (selectRollbackTargets active request)
      liftM (targets.forM (assertTarget files scripts request.allowDataLoss))
      targets.foldlM (rollbackTarget files scripts) []

end MigrationRunner

/-- A run of the command line, and what becomes of each of its requests. -/
inductive Command where
  | up
  | down (request : RollbackRequest)
  deriving DecidableEq, Repr

structure Run where
  command : Command
  outcomes : Nat → Transaction.Outcome MigrationError

def IN_ABORTED : MigrationError := .database (units
  "current transaction is aborted, commands ignored until end of transaction block")

/-- What a command does, its result apart. -/
def MigrationRunner.perform (runner : MigrationRunner) : Command → RunnerCalls Unit
  | .up => do let _ ← runner.up
  | .down request => do let _ ← runner.down request

/-- The database after one run, in a session of its own. -/
def Database.after (runner : MigrationRunner) (database : Database) (run : Run) : Database :=
  ((runner.perform run.command).run.eval (Transaction.exec Database.step IN_ABORTED)
    run.outcomes ⟨database, .idle⟩).2.committed

def Database.afterAll (runner : MigrationRunner) (database : Database) (runs : List Run) :
    Database := runs.foldl (Database.after runner) database

end Migrations
