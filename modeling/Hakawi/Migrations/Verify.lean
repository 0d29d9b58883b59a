import Hakawi.Migrations.AppliedPrefix

/-!
# `verify` and the drift check of `up`

`verify` lists each file and each orphaned row with its state and fails on two of the
states. `up` checks the same rows for drift before it applies anything. Both look at the
checksums and at the rows without a file; only `up` looks at the order.
-/

namespace Migrations
open Html Effects Effects.Transaction

inductive MigrationStatusKind where
  | applied
  | pending
  | checksumMismatch
  | orphanLedger
  | noDownScript
  | irreversible
  deriving DecidableEq, Repr

def MigrationStatusKind.text : MigrationStatusKind → Units
  | applied => units "applied"
  | pending => units "pending"
  | checksumMismatch => units "checksum-mismatch"
  | orphanLedger => units "orphan-ledger"
  | noDownScript => units "no-down-script"
  | irreversible => units "irreversible"

structure MigrationStatusEntry where
  id : Units
  filename : Units
  kind : MigrationStatusKind
  expectedChecksum : Option Units
  recordedChecksum : Option Units
  reversibility : Option MigrationReversibility
  detail : Units
  deriving DecidableEq, Repr

def describeDownScript : Option DownScript → Option MigrationReversibility × Units
  | none => (none, units "no down script")
  | some script => (some script.reversibility, script.reason)

/-- `new Map(active.map((row) => [row.migrationId, row]))`, in which the last of an id counts. -/
def activeById (active : List LedgerRow) (id : Units) : Option LedgerRow :=
  active.reverse.find? (·.migrationId = id)

/-- `row.checksum === LEGACY_CHECKSUM ? null : row.checksum` -/
def recordedChecksum (row : LedgerRow) : Option Units :=
  if row.checksum = LEGACY_CHECKSUM then none else some row.checksum

section Entries
variable (files : List MigrationFile) (active : List LedgerRow) (scripts : List DownScript)

/-- One pass of the loop over the files. -/
def fileEntry (file : MigrationFile) : MigrationStatusEntry :=
  let down := describeDownScript (downScriptOf scripts file.id)
  match activeById active file.id with
  | none =>
    ⟨file.id, file.filename, .pending, some file.checksum, none, down.1, units "not yet applied"⟩
  | some row =>
    if row.checksum ≠ LEGACY_CHECKSUM ∧ row.checksum ≠ file.checksum then
      ⟨file.id, file.filename, .checksumMismatch, some file.checksum, some row.checksum, down.1,
        units "recorded " ++ row.checksum ++ units " but the file hashes to " ++ file.checksum⟩
    else
      ⟨file.id, file.filename, if down.1 = some .irreversible then .irreversible else .applied,
        some file.checksum, recordedChecksum row, down.1,
        if down.1 = some .irreversible then units "applied; " ++ down.2 else units "applied"⟩

/-- One pass of the loop over the rows. -/
def orphanEntry (row : LedgerRow) : MigrationStatusEntry :=
  ⟨row.migrationId, row.filename, .orphanLedger, none, recordedChecksum row, none,
    units "recorded as applied but the .sql file is missing"⟩

def hasFile (id : Units) : Bool := files.any (·.id = id)

def buildStatusEntries : List MigrationStatusEntry :=
  files.map (fileEntry active scripts) ++
    (active.filter fun row => !hasFile files row.migrationId).map orphanEntry

end Entries

/-- `entry.kind === 'checksum-mismatch' || entry.kind === 'orphan-ledger'` -/
def MigrationStatusEntry.isFailure (entry : MigrationStatusEntry) : Bool :=
  entry.kind = .checksumMismatch || entry.kind = .orphanLedger

def assertNoFailures (entries : List MigrationStatusEntry) : Except MigrationError Unit :=
  let failures := entries.filter (·.isFailure)
  if failures.isEmpty then return ()
  else throw (.ledgerDrift (units "Ledger does not match the migration files: " ++
    joinIds (failures.map fun entry => entry.id ++ units " (" ++ entry.kind.text ++ units ")"))
    (failures.map (·.id)))

namespace MigrationRunner
variable (runner : MigrationRunner)

def status : RunnerCalls (List MigrationStatusEntry) := do
  let files ← liftM runner.list
  let scripts ← liftM runner.downScripts
  let active ← sql .selectActive
  return buildStatusEntries files active scripts

def verify : RunnerCalls (List MigrationStatusEntry) := do
  let entries ← runner.status
  liftM (assertNoFailures entries)
  return entries

end MigrationRunner

/-- A command on a database that performs every request: what it returns or throws, and
the session after it. -/
def Database.performs {α : Type} (database : Database) (command : RunnerCalls α) :
    Except MigrationError α × Session Database :=
  command.run.eval (Transaction.exec Database.step IN_ABORTED) (fun _ => .performed)
    ⟨database, .idle⟩

/-- The two errors of a drift check. -/
def MigrationError.isDrift : MigrationError → Bool
  | ledgerDrift _ _ => true
  | checksumMismatch _ _ _ _ => true
  | _ => false

/-- The command is refused, and drift is the reason. -/
def RefusedAsDrifted {α : Type} (result : Except MigrationError α) : Prop :=
  ∃ error, result = .error error ∧ error.isDrift

/-- Each applied row has its file, which is as it was recorded if a checksum was. -/
def RowsMatch (files : List MigrationFile) (active : List LedgerRow) : Prop :=
  ∀ row ∈ active, ∃ file ∈ files, file.id = row.migrationId ∧
    (row.checksum = LEGACY_CHECKSUM ∨ row.checksum = file.checksum)

/-- No file is pending below an applied one. -/
def InOrder (files : List MigrationFile) (active : List LedgerRow) : Prop :=
  files.Pairwise fun file later => hasId active later.id → hasId active file.id

section Lookups
variable {files : List MigrationFile} {active : List LedgerRow}

theorem find?_reverse_eq_some {ι : Type} {items : List ι} {key : ι → Units}
    (nodup : (items.map key).Nodup) {k : Units} {item : ι} :
    items.reverse.find? (key · = k) = some item ↔ item ∈ items ∧ key item = k := by
  constructor
  · intro found
    exact ⟨List.mem_reverse.mp (List.mem_of_find?_eq_some found), by
      simpa using List.find?_some found⟩
  · rintro ⟨member, rfl⟩
    cases found : items.reverse.find? (key · = key item) with
    | none =>
      have := List.find?_eq_none.mp found item (List.mem_reverse.mpr member)
      simp at this
    | some other =>
      have known := List.mem_reverse.mp (List.mem_of_find?_eq_some found)
      have same : key other = key item := by simpa using List.find?_some found
      rw [List.inj_on_of_nodup_map nodup known member same]

theorem hasFile_iff {id : Units} : hasFile files id ↔ ∃ file ∈ files, file.id = id := by
  simp [hasFile]

theorem assertRowMatches_eq_ok (directory : MigrationsDirectory) (nodup : (files.map (·.id)).Nodup)
    {row : LedgerRow} : assertRowMatches directory files row = .ok () ↔
      ∃ file ∈ files, file.id = row.migrationId ∧
        (row.checksum = LEGACY_CHECKSUM ∨ row.checksum = file.checksum) := by
  unfold assertRowMatches
  cases found : byId files row.migrationId with
  | none =>
    constructor
    · intro passes
      cases passes
    · rintro ⟨file, member, named, -⟩
      have := (find?_reverse_eq_some nodup).mpr ⟨member, named⟩
      rw [byId] at found
      rw [found] at this
      cases this
  | some file =>
    obtain ⟨member, named⟩ := (find?_reverse_eq_some nodup).mp found
    simp only
    split
    · rename_i changed
      constructor
      · intro passes
        cases passes
      · rintro ⟨other, known, same, unchanged⟩
        obtain rfl := List.inj_on_of_nodup_map nodup known member (same.trans named.symm)
        rcases unchanged with legacy | recorded
        · exact absurd legacy changed.1
        · exact absurd recorded changed.2
    · rename_i unchanged
      refine ⟨fun _ => ⟨file, member, named, ?_⟩, fun _ => rfl⟩
      by_contra neither
      rw [not_or] at neither
      exact unchanged neither

theorem assertRowMatches_isDrift {directory : MigrationsDirectory} {row : LedgerRow}
    {error : MigrationError} (h : assertRowMatches directory files row = .error error) :
    error.isDrift := by
  unfold assertRowMatches at h
  split at h
  · obtain rfl := Except.error.inj h
    rfl
  · split at h
    · obtain rfl := Except.error.inj h
      rfl
    · cases h

end Lookups

section Drift
variable {files : List MigrationFile} {active : List LedgerRow} {directory : MigrationsDirectory}

theorem forM_ok_iff {ι ε : Type} {items : List ι} {check : ι → Except ε PUnit} :
    items.forM check = .ok () ↔ ∀ item ∈ items, check item = .ok () := by
  refine ⟨forM_eq_ok, fun all => ?_⟩
  induction items with
  | nil => rfl
  | cons first rest ih =>
    change (check first >>= fun _ => rest.forM check) = _
    rw [all first List.mem_cons_self]
    exact ih fun item member => all item (List.mem_cons_of_mem _ member)

theorem forM_eq_error {ι ε : Type} {items : List ι} {check : ι → Except ε PUnit} {error : ε}
    (h : items.forM check = .error error) : ∃ item ∈ items, check item = .error error := by
  induction items with
  | nil => cases h
  | cons first rest ih =>
    change (check first >>= fun _ => rest.forM check) = _ at h
    cases passes : check first with
    | error other =>
      rw [passes] at h
      exact ⟨first, List.mem_cons_self, passes.trans h⟩
    | ok u =>
      rw [passes] at h
      obtain ⟨item, member, thrown⟩ := ih h
      exact ⟨item, List.mem_cons_of_mem _ member, thrown⟩

/-- Nothing is pending below the last applied file just when the files are in order. -/
theorem inOrder_iff : InOrder files active ↔
    highestAppliedIndex files active < 0 ∨
      pendingBelow files active (highestAppliedIndex files active) = [] := by
  rcases highestAppliedIndex_spec files active with
    ⟨none, absent⟩ | ⟨before, file, after, rfl, highest, applied, absent⟩
  · rw [none]
    refine ⟨fun _ => Or.inl (by omega), fun _ => ?_⟩
    refine List.pairwise_of_forall_mem_list fun file _ later member recorded => ?_
    rw [absent later member] at recorded
    cases recorded
  · rw [highest, pendingBelow, Int.toNat_natCast, List.take_left, List.filter_eq_nil_iff, InOrder,
      List.pairwise_append]
    constructor
    · rintro ⟨-, -, across⟩
      refine Or.inr fun earlier member => ?_
      simpa using across earlier member file List.mem_cons_self applied
    · rintro (negative | full)
      · omega
      · have early : ∀ earlier ∈ before, hasId active earlier.id := by
          intro earlier member
          simpa using full earlier member
        refine ⟨List.pairwise_of_forall_mem_list fun earlier member _ _ _ => early earlier member,
          List.pairwise_cons.mpr ⟨fun later member recorded => ?_, ?_⟩,
          fun earlier member _ _ _ => early earlier member⟩
        · rw [absent later member] at recorded
          cases recorded
        · refine List.pairwise_of_forall_mem_list fun _ _ later member recorded => ?_
          rw [absent later member] at recorded
          cases recorded

variable (directory) in
theorem assertNoDrift_ok_iff (nodup : (files.map (·.id)).Nodup) :
    assertNoDrift directory files active = .ok () ↔
      RowsMatch files active ∧ InOrder files active := by
  have matched : active.forM (assertRowMatches directory files) = .ok () ↔
      RowsMatch files active := by
    rw [forM_ok_iff]
    exact forall₂_congr fun row _ => assertRowMatches_eq_ok directory nodup
  unfold assertNoDrift
  cases checked : active.forM (assertRowMatches directory files) with
  | error error =>
    refine ⟨nofun, fun both => ?_⟩
    rw [matched.mpr both.1] at checked
    cases checked
  | ok u =>
    rw [inOrder_iff]
    simp only [matched.mp checked, true_and, bind, Except.bind]
    split
    · rename_i negative
      exact ⟨fun _ => Or.inl negative, fun _ => rfl⟩
    · rename_i applied
      cases pending : pendingBelow files active (highestAppliedIndex files active) with
      | nil => exact ⟨fun _ => Or.inr rfl, fun _ => rfl⟩
      | cons file rest =>
        refine ⟨nofun, fun either => ?_⟩
        rcases either with negative | none
        · exact absurd negative applied
        · cases none

theorem assertNoDrift_isDrift {error : MigrationError}
    (h : assertNoDrift directory files active = .error error) : error.isDrift := by
  unfold assertNoDrift at h
  cases checked : active.forM (assertRowMatches directory files) with
  | error other =>
    rw [checked] at h
    obtain rfl := Except.error.inj h
    obtain ⟨row, -, thrown⟩ := forM_eq_error checked
    exact assertRowMatches_isDrift thrown
  | ok u =>
    rw [checked] at h
    simp only [bind, Except.bind] at h
    split at h
    · cases h
    · split at h
      · cases h
      · obtain rfl := Except.error.inj h
        rfl

/-- What the check says depends on the rows, not on the order in which they come. -/
theorem RowsMatch.congr {other : List LedgerRow} (same : ∀ row, row ∈ other ↔ row ∈ active) :
    RowsMatch files other ↔ RowsMatch files active :=
  forall_congr' fun row => by rw [same]

theorem InOrder.congr {other : List LedgerRow}
    (same : ∀ id, id ∈ other.map (·.migrationId) ↔ id ∈ active.map (·.migrationId)) :
    InOrder files other ↔ InOrder files active := by
  have agree : ∀ id, (hasId other id : Prop) ↔ hasId active id := by
    intro id
    rw [hasId_iff, hasId_iff, same]
  simp only [InOrder, agree]

end Drift

section Failures
variable {files : List MigrationFile} {active : List LedgerRow} {scripts : List DownScript}

variable (scripts) in
theorem fileEntry_isFailure {file : MigrationFile}
    (unique : (active.map (·.migrationId)).Nodup) :
    (fileEntry active scripts file).isFailure ↔ ∃ row ∈ active, row.migrationId = file.id ∧
      row.checksum ≠ LEGACY_CHECKSUM ∧ row.checksum ≠ file.checksum := by
  unfold fileEntry
  cases found : activeById active file.id with
  | none =>
    refine ⟨nofun, fun ⟨row, member, named, _⟩ => ?_⟩
    have := (find?_reverse_eq_some unique).mpr ⟨member, named⟩
    rw [activeById] at found
    rw [found] at this
    cases this
  | some row =>
    obtain ⟨member, named⟩ := (find?_reverse_eq_some unique).mp found
    simp only
    split
    · rename_i changed
      exact ⟨fun _ => ⟨row, member, named, changed⟩, fun _ => rfl⟩
    · rename_i unchanged
      constructor
      · intro failure
        simp only [MigrationStatusEntry.isFailure] at failure
        split at failure <;> cases failure
      · rintro ⟨other, known, same, changed⟩
        obtain rfl := List.inj_on_of_nodup_map unique known member (same.trans named.symm)
        exact absurd changed unchanged

theorem assertNoFailures_ok_iff {entries : List MigrationStatusEntry} :
    assertNoFailures entries = .ok () ↔ ∀ entry ∈ entries, entry.isFailure = false := by
  unfold assertNoFailures
  simp only [List.isEmpty_iff]
  split
  · rename_i none
    refine ⟨fun _ => ?_, fun _ => rfl⟩
    simpa using none
  · rename_i some'
    refine ⟨nofun, fun all => ?_⟩
    exact absurd (List.filter_eq_nil_iff.mpr fun entry member => by simp [all entry member]) some'

variable (scripts) in
/-- No entry is a failure just when each row has its file, as it was recorded. -/
theorem buildStatusEntries_ok_iff (unique : (active.map (·.migrationId)).Nodup)
    (nodup : (files.map (·.id)).Nodup) :
    assertNoFailures (buildStatusEntries files active scripts) = .ok () ↔
      RowsMatch files active := by
  rw [assertNoFailures_ok_iff, buildStatusEntries]
  simp only [List.mem_append, List.mem_map, List.mem_filter]
  constructor
  · intro none row member
    obtain ⟨file, known, named⟩ : ∃ file ∈ files, file.id = row.migrationId := by
      rw [← hasFile_iff]
      by_contra orphan
      have := none (orphanEntry row) (Or.inr ⟨row, ⟨member, by simp [orphan]⟩, rfl⟩)
      cases this
    refine ⟨file, known, named, ?_⟩
    by_contra neither
    rw [not_or] at neither
    have failure := (fileEntry_isFailure scripts unique).mpr
      ⟨row, member, named.symm, neither⟩
    rw [none _ (Or.inl ⟨file, known, rfl⟩)] at failure
    cases failure
  · rintro rows entry (⟨file, known, rfl⟩ | ⟨row, ⟨member, orphan⟩, rfl⟩)
    · rw [← Bool.not_eq_true, fileEntry_isFailure scripts unique]
      rintro ⟨row, member, named, changed⟩
      obtain ⟨other, known', same, unchanged⟩ := rows row member
      obtain rfl := List.inj_on_of_nodup_map nodup known' known (same.trans named)
      rcases unchanged with legacy | recorded
      · exact changed.1 legacy
      · exact changed.2 recorded
    · obtain ⟨file, known, named, -⟩ := rows row member
      have := hasFile_iff.mpr ⟨file, known, named⟩
      rw [this] at orphan
      cases orphan

end Failures

section Runs
variable {α : Type} {files : List MigrationFile} {runner : MigrationRunner} {database : Database}

/-- Every request of the runner is performed. -/
abbrev performing : Program.OpSpec (Request Statement) (Result MigrationError Statement.Answer)
    (Session Database) := performedSpec Database.step IN_ABORTED

theorem performing_monotone : performing.Monotone := performedSpec_monotone Database.step IN_ABORTED

/-- How a command ends, between transactions. -/
def Ended (Q : Except MigrationError α → Database → Prop) (result : Except MigrationError α)
    (session : Session Database) : Prop := ∃ after, session = ⟨after, .idle⟩ ∧ Q result after

theorem performs_of_wpE {command : RunnerCalls α} {Q : Except MigrationError α → Database → Prop}
    (h : wpE performing command (Ended Q) ⟨database, .idle⟩) :
    Q (database.performs command).1 (database.performs command).2.committed := by
  have ended : Ended Q (database.performs command).1 (database.performs command).2 :=
    Program.eval_of_wp h fun _ => rfl
  obtain ⟨after, same, holds⟩ := ended
  rw [same]
  exact holds

theorem performed_ensureLedgerTable (database : Database) :
    wpE performing ensureLedgerTable (Performed database) ⟨database, .idle⟩ := by
  have each : ∀ ddls : List LedgerDdl, wpE performing (forM ddls fun ddl => sql (.ledgerDdl ddl))
      (Performed database) ⟨database, .idle⟩ := by
    intro ddls
    induction ddls with
    | nil => exact ⟨⟨(), rfl⟩, rfl⟩
    | cons ddl rest ih =>
      rw [List.forM_cons, wpE_bind]
      exact wpE_performed ih
  exact each LEDGER_DDL

/-- The section under the lock ends as its body does. -/
theorem performed_withAdvisoryLock {work : RunnerCalls α}
    {Q : Except MigrationError α → Database → Prop}
    (h : wpE performing work (Ended Q) ⟨database, .idle⟩) :
    wpE performing (withAdvisoryLock work) (Ended Q) ⟨database, .idle⟩ := by
  rw [withAdvisoryLock, wpE_bind]
  apply wpE_performed
  simp only [Database.step]
  rw [wpE_bind, wpE_tryCatch, wpE_bind]
  refine wpE_mono performing_monotone (fun result session ended => ?_) h
  obtain ⟨after, rfl, holds⟩ := ended
  have unlock : ∀ result : Except MigrationError α, Q result after →
      wpE performing (do sql (.advisoryUnlock MIGRATION_LOCK_ID); liftM result : RunnerCalls α)
        (Ended Q) ⟨after, .idle⟩ := by
    intro result holds
    rw [wpE_bind]
    exact wpE_performed ⟨after, rfl, holds⟩
  cases result with
  | ok a => exact unlock (.ok a) holds
  | error error => exact unlock (.error error) holds

/-- The same rows are applied, and they match the files as before. -/
def Adopted (files : List MigrationFile) (before after : Database) : Prop :=
  SameApplied before after ∧
    (RowsMatch files after.ledger.active ↔ RowsMatch files before.ledger.active)

/-- A row without a checksum matches its file before and after the file's is recorded. -/
theorem rowsMatch_adoptLegacyChecksum {file : MigrationFile} (member : file ∈ files)
    (ledger : Ledger) :
    RowsMatch files (ledger.adoptLegacyChecksum file.id file.checksum file.filename).active ↔
      RowsMatch files ledger.active := by
  have rows : (ledger.adoptLegacyChecksum file.id file.checksum file.filename).active =
      ledger.active.map fun row => if row.migrationId = file.id ∧ row.checksum = [] then
        { row with checksum := file.checksum, filename := file.filename } else row := by
    rw [Ledger.active, Ledger.adoptLegacyChecksum, Ledger.update, List.filter_map, Ledger.active]
    congr 1
    refine List.filter_congr fun row _ => ?_
    rw [Function.comp_apply]
    split <;> rfl
  rw [rows]
  simp only [RowsMatch, List.forall_mem_map]
  refine forall₂_congr fun row _ => ?_
  split
  · rename_i legacy
    exact ⟨fun _ => ⟨file, member, legacy.1.symm, Or.inl legacy.2⟩,
      fun _ => ⟨file, member, legacy.1.symm, Or.inr rfl⟩⟩
  · exact Iff.rfl

theorem performed_adoptLegacyRow {adopted : List Units} {row : LedgerRow} {current : Database}
    (before : Adopted files database current) :
    wpE performing (adoptLegacyRow files adopted row)
      (Ended fun result after => (∃ ids, result = .ok ids) ∧ Adopted files database after)
      ⟨current, .idle⟩ := by
  unfold adoptLegacyRow
  split
  · exact ⟨current, rfl, ⟨_, rfl⟩, before⟩
  · split
    · exact ⟨current, rfl, ⟨_, rfl⟩, before⟩
    · rename_i file found
      obtain ⟨member, named⟩ := byId_eq_some found
      rw [wpE_bind]
      apply wpE_performed
      refine ⟨_, rfl, ⟨_, rfl⟩, ⟨fun id => ?_, before.1.2⟩, ?_⟩
      · exact Ledger.mem_activeIds_adoptLegacyChecksum.trans (before.1.1 id)
      · rw [← named]
        exact (rowsMatch_adoptLegacyChecksum member _).trans before.2

theorem performed_adoptLegacyRows (files : List MigrationFile) (database : Database) :
    wpE performing (adoptLegacyRows files)
      (Ended fun result after => (∃ ids, result = .ok ids) ∧ Adopted files database after)
      ⟨database, .idle⟩ := by
  have loop : ∀ (rows : List LedgerRow) (adopted : List Units) (current : Database),
      Adopted files database current → wpE performing (rows.foldlM (adoptLegacyRow files) adopted)
        (Ended fun result after => (∃ ids, result = .ok ids) ∧ Adopted files database after)
        ⟨current, .idle⟩ := by
    intro rows
    induction rows with
    | nil => exact fun adopted current before => ⟨current, rfl, ⟨adopted, rfl⟩, before⟩
    | cons row rest ih =>
      intro adopted current before
      rw [List.foldlM_cons, wpE_bind]
      refine wpE_mono performing_monotone (fun result session ended => ?_)
        (performed_adoptLegacyRow before)
      obtain ⟨after, rfl, ⟨ids, rfl⟩, still⟩ := ended
      exact ih ids after still
  have start : Adopted files database database := ⟨SameApplied.refl _, Iff.rfl⟩
  rw [adoptLegacyRows, backfillLegacyAppliedAt, wpE_bind, wpE_bind]
  apply wpE_performed
  simp only
  split
  · rw [wpE_bind]
    apply wpE_performed
    simp only [Database.step]
    rw [wpE_pure]
    simp only
    rw [wpE_bind]
    exact wpE_performed (loop _ _ _ start)
  · rw [wpE_pure]
    simp only
    rw [wpE_bind]
    exact wpE_performed (loop _ _ _ start)

theorem performed_applyPending (active : List LedgerRow) (result : MigrationRunResult)
    (file : MigrationFile) (database : Database) :
    wpE performing (applyPending active result file) (Performed (passed active database file))
      ⟨database, .idle⟩ := by
  unfold applyPending passed
  split
  · exact ⟨⟨_, rfl⟩, rfl⟩
  · rw [wpE_bind]
    refine wpE_mono performing_monotone (fun outcome session here => ?_)
      (wpE_performed_transaction_forM _ _ database)
    obtain ⟨⟨u, rfl⟩, rfl⟩ := here
    exact ⟨⟨_, rfl⟩, by rw [database.foldl_applyFile file]⟩

theorem Database.mem_selectActive (database : Database) (row : LedgerRow) :
    row ∈ database.selectActive ↔ row ∈ database.ledger.active :=
  (List.perm_insertionSort _ _).mem_iff

theorem activeIds_iff (database : Database) (id : Units) :
    id ∈ database.selectActive.map (·.migrationId) ↔ id ∈ database.ledger.activeIds :=
  database.selectActive_ids.mem_iff

/-- `up` stops on drift and on nothing else. -/
theorem performed_up (found : runner.list = .ok files) (database : Database) :
    wpE performing runner.up (Ended fun result _ =>
      RefusedAsDrifted result ↔
        ¬ (RowsMatch files database.ledger.active ∧ InOrder files database.ledger.active))
      ⟨database, .idle⟩ := by
  have nodup := ids_nodup found
  unfold MigrationRunner.up
  rw [found, wpE_bind, wpE_liftM]
  simp only
  rw [wpE_bind]
  refine wpE_mono performing_monotone (fun result session here => ?_)
    (performed_ensureLedgerTable database)
  obtain ⟨⟨u, rfl⟩, rfl⟩ := here
  apply performed_withAdvisoryLock
  rw [wpE_bind]
  refine wpE_mono performing_monotone (fun result session ended => ?_)
    (performed_adoptLegacyRows files database)
  obtain ⟨after, rfl, ⟨adopted, rfl⟩, same, rows⟩ := ended
  simp only
  rw [wpE_bind]
  apply wpE_performed
  simp only
  rw [wpE_bind, wpE_liftM]
  have rows : RowsMatch files (Database.step after .selectActive).1 ↔
      RowsMatch files database.ledger.active :=
    (RowsMatch.congr after.mem_selectActive).trans rows
  have order : InOrder files (Database.step after .selectActive).1 ↔
      InOrder files database.ledger.active :=
    InOrder.congr fun id => (activeIds_iff after id).trans (same.1 id)
  rw [← rows, ← order, ← assertNoDrift_ok_iff runner.directory nodup]
  cases checked : assertNoDrift runner.directory files (Database.step after .selectActive).1 with
  | error error =>
    refine ⟨after, rfl, fun _ => nofun, fun _ => ⟨error, rfl, assertNoDrift_isDrift checked⟩⟩
  | ok u =>
    refine wpE_mono performing_monotone (fun result session here => ?_)
      (wpE_performed_foldlM (performed_applyPending _) _ files after)
    obtain ⟨⟨applied, rfl⟩, rfl⟩ := here
    refine ⟨_, rfl, fun refused => ?_, fun drift => absurd rfl drift⟩
    obtain ⟨error, thrown, -⟩ := refused
    cases thrown

/-- `verify` fails on a row that does not match the files, or on its own reading. -/
theorem performed_verify (found : runner.list = .ok files) (database : Database) :
    wpE performing runner.verify (Ended fun result _ => (∃ entries, result = .ok entries) ↔
      (∃ scripts, runner.downScripts = .ok scripts) ∧ RowsMatch files database.ledger.active)
      ⟨database, .idle⟩ := by
  unfold MigrationRunner.verify MigrationRunner.status
  rw [found, wpE_bind, wpE_bind, wpE_liftM]
  simp only
  rw [wpE_bind, wpE_liftM]
  cases runner.downScripts with
  | error error =>
    refine ⟨database, rfl, fun ok => ?_, fun ok => ?_⟩
    · obtain ⟨entries, returned⟩ := ok
      cases returned
    · obtain ⟨⟨scripts, read⟩, -⟩ := ok
      cases read
  | ok scripts =>
    simp only
    rw [wpE_bind]
    apply wpE_performed
    simp only
    rw [wpE_pure]
    simp only
    rw [wpE_bind, wpE_liftM]
    have unique : ((Database.step database .selectActive).1.map (·.migrationId)).Nodup :=
      database.selectActive_ids.nodup_iff.mpr database.ledger.activeIds_nodup
    have rows : RowsMatch files (Database.step database .selectActive).1 ↔
        RowsMatch files database.ledger.active := RowsMatch.congr database.mem_selectActive
    rw [← rows, ← buildStatusEntries_ok_iff scripts unique (ids_nodup found)]
    cases assertNoFailures
        (buildStatusEntries files (Database.step database .selectActive).1 scripts) with
    | error error =>
      refine ⟨database, rfl, fun ok => ?_, fun ok => ?_⟩
      · obtain ⟨entries, returned⟩ := ok
        cases returned
      · cases ok.2
    | ok u => exact ⟨database, rfl, fun _ => ⟨⟨scripts, rfl⟩, rfl⟩, fun _ => ⟨_, rfl⟩⟩

/-- `verify` and the drift check of `up` agree on a database just when each applied row
matches no file, or the down scripts can be read exactly if no file is pending below an
applied one. -/
theorem verify_agrees_iff (found : runner.list = .ok files) (database : Database) :
    ((∃ entries, (database.performs runner.verify).1 = .ok entries) ↔
        ¬ RefusedAsDrifted (database.performs runner.up).1) ↔
      (RowsMatch files database.ledger.active →
        ((∃ scripts, runner.downScripts = .ok scripts) ↔
          InOrder files database.ledger.active)) := by
  have verified := performs_of_wpE (performed_verify found database)
  have refused := performs_of_wpE (performed_up found database)
  rw [verified, refused]
  tauto

/-- Three files without down scripts. -/
def threeFiles : MigrationRunner where
  directory := {
    path := units "migrations"
    entries := [units "0000_a.sql", units "0001_b.sql", units "0002_c.sql"]
    readFile := .ok
    splitSqlStatements := fun content => .ok [content]
    computeMigrationChecksum := id }
  downScripts := .ok []

/-- The first file and the third are recorded as applied. -/
def gapDatabase : Database := {
  ledger := ⟨[⟨units "0000_a", units "0000_a.sql", units "0000_a.sql", 1, false⟩,
    ⟨units "0002_c", units "0002_c.sql", units "0002_c.sql", 1, false⟩], by decide⟩
  legacyColumn := false
  collation := fun _ _ => true
  history := [] }

/-- `verify` accepts the gap, on which `up` is refused. -/
theorem verify_accepts_gap :
    (∃ entries, (gapDatabase.performs threeFiles.verify).1 = .ok entries) ∧
      RefusedAsDrifted (gapDatabase.performs threeFiles.up).1 := by
  have found : threeFiles.list = .ok [⟨units "0000_a", units "0000_a.sql", units "0000_a.sql",
      [units "0000_a.sql"]⟩, ⟨units "0001_b", units "0001_b.sql", units "0001_b.sql",
      [units "0001_b.sql"]⟩, ⟨units "0002_c", units "0002_c.sql", units "0002_c.sql",
      [units "0002_c.sql"]⟩] := rfl
  refine ⟨(performs_of_wpE (performed_verify found gapDatabase)).mpr ⟨⟨[], rfl⟩, ?_⟩,
    (performs_of_wpE (performed_up found gapDatabase)).mpr fun accepted => ?_⟩
  · rw [RowsMatch]
    decide
  · have gap := accepted.2
    rw [InOrder] at gap
    revert gap
    decide

/-- The agreement at the database without a gap that `up` leaves. -/
theorem verify_agrees_on_empty :
    ∃ files, threeFiles.list = .ok files ∧
      (((∃ entries, (emptyDatabase.performs threeFiles.verify).1 = .ok entries) ↔
          ¬ RefusedAsDrifted (emptyDatabase.performs threeFiles.up).1) ↔
        (RowsMatch files emptyDatabase.ledger.active →
          ((∃ scripts, threeFiles.downScripts = .ok scripts) ↔
            InOrder files emptyDatabase.ledger.active))) :=
  ⟨_, rfl, verify_agrees_iff rfl emptyDatabase⟩

end Runs
end Migrations
