import Hakawi.Effects.Transaction
import Hakawi.Migrations.Discovery

/-!
# The migration ledger

One row for each migration that was ever applied, under its id. The statements of
the runner read and write these rows; those of a script act on the rest of the
database, of which only their order is kept.
-/

namespace Migrations
open Html

structure LedgerRow where
  migrationId : Units
  filename : Units
  checksum : Units
  statementCount : Nat
  /-- `rolled_back_at IS NOT NULL` -/
  rolledBack : Bool
  deriving DecidableEq, Repr

/-- `migration_id` is unique. -/
structure Ledger where
  rows : List LedgerRow
  unique : (rows.map (·.migrationId)).Nodup

structure LedgerWrite where
  migrationId : Units
  filename : Units
  checksum : Units
  statementCount : Nat
  deriving DecidableEq, Repr

def LedgerWrite.row (write : LedgerWrite) : LedgerRow :=
  ⟨write.migrationId, write.filename, write.checksum, write.statementCount, false⟩

namespace Ledger

def empty : Ledger := ⟨[], List.nodup_nil⟩

/-- `WHERE rolled_back_at IS NULL` -/
def active (ledger : Ledger) : List LedgerRow := ledger.rows.filter fun row => !row.rolledBack

/-- The ids whose row is applied. -/
def activeIds (ledger : Ledger) : List Units := ledger.active.map (·.migrationId)

/-- Rewrite rows, keeping their ids. -/
def update (ledger : Ledger) (f : LedgerRow → LedgerRow)
    (keeps : ∀ row, (f row).migrationId = row.migrationId) : Ledger where
  rows := ledger.rows.map f
  unique := by
    have same : (ledger.rows.map f).map (·.migrationId) = ledger.rows.map (·.migrationId) := by
      rw [List.map_map]
      exact List.map_congr_left fun row _ => keeps row
    rw [same]
    exact ledger.unique

/-- `INSERT … ON CONFLICT (migration_id) DO UPDATE` -/
def upsert (ledger : Ledger) (write : LedgerWrite) : Ledger :=
  if conflict : write.migrationId ∈ ledger.rows.map (·.migrationId) then
    ledger.update (fun row => if row.migrationId = write.migrationId then write.row else row)
      fun row => by
        split
        · rename_i same
          exact same.symm
        · rfl
  else
    { rows := ledger.rows ++ [write.row]
      unique := by
        rw [List.map_append]
        refine List.nodup_append.mpr ⟨ledger.unique, List.nodup_singleton _, ?_⟩
        rintro id known other new rfl
        rw [List.map_cons, List.map_nil, List.mem_singleton] at new
        exact conflict ((show id = write.migrationId from new) ▸ known) }

def markRolledBack (ledger : Ledger) (migrationId : Units) : Ledger :=
  ledger.update (fun row =>
    if row.migrationId = migrationId ∧ !row.rolledBack then { row with rolledBack := true }
    else row) fun row => by split <;> rfl

def adoptLegacyChecksum (ledger : Ledger) (migrationId checksum filename : Units) : Ledger :=
  ledger.update (fun row =>
    if row.migrationId = migrationId ∧ row.checksum = [] then
      { row with checksum := checksum, filename := filename }
    else row) fun row => by split <;> rfl

theorem mem_activeIds {ledger : Ledger} {id : Units} :
    id ∈ ledger.activeIds ↔ ∃ row ∈ ledger.rows, row.rolledBack = false ∧ row.migrationId = id := by
  simp [activeIds, active, and_assoc]

theorem activeIds_nodup (ledger : Ledger) : ledger.activeIds.Nodup :=
  (List.filter_sublist.map _).nodup ledger.unique

theorem mem_activeIds_update {ledger : Ledger} {f : LedgerRow → LedgerRow}
    {keeps : ∀ row, (f row).migrationId = row.migrationId} {id : Units} :
    id ∈ (ledger.update f keeps).activeIds ↔
      ∃ row ∈ ledger.rows, (f row).rolledBack = false ∧ row.migrationId = id := by
  rw [mem_activeIds]
  constructor
  · rintro ⟨_, member, active, rfl⟩
    obtain ⟨row, known, rfl⟩ := List.mem_map.mp member
    exact ⟨row, known, active, (keeps row).symm⟩
  · rintro ⟨row, known, active, rfl⟩
    exact ⟨f row, List.mem_map_of_mem known, active, keeps row⟩

/-- What is recorded as applied is applied, and so is what was before. -/
theorem mem_activeIds_upsert {ledger : Ledger} {write : LedgerWrite} {id : Units} :
    id ∈ (ledger.upsert write).activeIds ↔ id = write.migrationId ∨ id ∈ ledger.activeIds := by
  unfold upsert
  split
  · rename_i conflict
    rw [mem_activeIds_update, mem_activeIds]
    constructor
    · rintro ⟨row, known, active, rfl⟩
      by_cases same : row.migrationId = write.migrationId
      · exact Or.inl same
      · rw [if_neg same] at active
        exact Or.inr ⟨row, known, active, rfl⟩
    · rintro (rfl | ⟨row, known, active, rfl⟩)
      · obtain ⟨row, known, same⟩ := List.mem_map.mp conflict
        exact ⟨row, known, by rw [if_pos same]; rfl, same⟩
      · refine ⟨row, known, ?_, rfl⟩
        split
        · rfl
        · exact active
  · simp only [mem_activeIds, List.mem_append, List.mem_singleton]
    constructor
    · rintro ⟨row, known | rfl, active, rfl⟩
      · exact Or.inr ⟨row, known, active, rfl⟩
      · exact Or.inl rfl
    · rintro (rfl | ⟨row, known, active, rfl⟩)
      · exact ⟨write.row, Or.inr rfl, rfl, rfl⟩
      · exact ⟨row, Or.inl known, active, rfl⟩

theorem mem_activeIds_markRolledBack {ledger : Ledger} {migrationId id : Units} :
    id ∈ (ledger.markRolledBack migrationId).activeIds ↔
      id ∈ ledger.activeIds ∧ id ≠ migrationId := by
  rw [markRolledBack, mem_activeIds_update, mem_activeIds]
  constructor
  · rintro ⟨row, known, active, rfl⟩
    split at active
    · cases active
    · rename_i other
      exact ⟨⟨row, known, active, rfl⟩, fun same => other ⟨same, by simp [active]⟩⟩
  · rintro ⟨⟨row, known, active, rfl⟩, other⟩
    exact ⟨row, known, by rw [if_neg fun both => other both.1]; exact active, rfl⟩

theorem mem_activeIds_adoptLegacyChecksum {ledger : Ledger} {migrationId checksum filename id : Units} :
    id ∈ (ledger.adoptLegacyChecksum migrationId checksum filename).activeIds ↔
      id ∈ ledger.activeIds := by
  rw [adoptLegacyChecksum, mem_activeIds_update, mem_activeIds]
  have kept : ∀ row : LedgerRow, (if row.migrationId = migrationId ∧ row.checksum = [] then
      { row with checksum := checksum, filename := filename } else row).rolledBack =
        row.rolledBack := by
    intro row
    split <;> rfl
  simp only [kept]

end Ledger

/-- `LEDGER_DDL` creates the table of older and newer databases alike. -/
inductive LedgerDdl where
  | createTable
  | addColumn (column : String)
  | createUniqueIndex
  deriving DecidableEq, Repr

def LEDGER_DDL : List LedgerDdl :=
  [.createTable, .addColumn "filename", .addColumn "checksum", .addColumn "applied_at",
    .addColumn "execution_ms", .addColumn "statement_count", .addColumn "rolled_back_at",
    .createUniqueIndex]

inductive Statement where
  | ledgerDdl (ddl : LedgerDdl)
  | advisoryLock (lockId : Nat)
  | advisoryUnlock (lockId : Nat)
  | setLocal (setting value : String)
  /-- A statement of a migration file or of a down script. -/
  | script (statement : Units)
  /-- Whether the ledger has the column `executed_at` of the previous runner. -/
  | legacyColumn
  | backfillLegacyAppliedAt
  | selectActive
  | adoptLegacyChecksum (migrationId checksum filename : Units)
  | writeLedgerRow (write : LedgerWrite)
  | markLedgerRowRolledBack (migrationId : Units)
  deriving DecidableEq

namespace Statement

@[reducible] def Answer : Statement → Type
  | legacyColumn => Bool
  | selectActive => List LedgerRow
  | _ => Unit

end Statement

/-- What a statement changed, in the order in which the statements took effect. -/
inductive Change where
  | executed (statement : Units)
  | applied (migrationId : Units)
  | reverted (migrationId : Units)
  deriving DecidableEq, Repr

structure Database where
  ledger : Ledger
  legacyColumn : Bool
  /-- The order in which the database compares ids. -/
  collation : Units → Units → Bool
  history : List Change

namespace Database

def record (database : Database) (change : Change) : Database :=
  { database with history := database.history ++ [change] }

/-- The rows come in the order of the collation. -/
def selectActive (database : Database) : List LedgerRow :=
  database.ledger.active.insertionSort fun left right =>
    database.collation left.migrationId right.migrationId

def step (database : Database) : (statement : Statement) → statement.Answer × Database
  | .ledgerDdl _ => ((), database)
  | .advisoryLock _ => ((), database)
  | .advisoryUnlock _ => ((), database)
  | .setLocal _ _ => ((), database)
  | .script statement => ((), database.record (.executed statement))
  | .legacyColumn => (database.legacyColumn, database)
  | .backfillLegacyAppliedAt => ((), database)
  | .selectActive => (database.selectActive, database)
  | .adoptLegacyChecksum migrationId checksum filename =>
    ((), { database with
      ledger := database.ledger.adoptLegacyChecksum migrationId checksum filename })
  | .writeLedgerRow write =>
    ((), { database with ledger := database.ledger.upsert write }.record (.applied write.migrationId))
  | .markLedgerRowRolledBack migrationId =>
    ((), { database with ledger := database.ledger.markRolledBack migrationId }.record
      (.reverted migrationId))

theorem selectActive_ids (database : Database) :
    (database.selectActive.map (·.migrationId)).Perm database.ledger.activeIds :=
  (List.perm_insertionSort _ _).map _

end Database
end Migrations
