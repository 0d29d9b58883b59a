import Hakawi.Migrations.RunnerRules

/-!
# The applied migrations are a prefix of the files

Whatever fails, `up` moves the end of the prefix forward over the files it applied and
`down` moves it back, newest first. A ledger that is not a prefix is left as it is.
-/

namespace Migrations
open Html Effects Effects.Transaction

/-- The ids whose row is applied are those of the first `k` files. -/
def AppliedPrefix (files : List MigrationFile) (k : Nat) (ledger : Ledger) : Prop :=
  k ≤ files.length ∧ ∀ id, id ∈ ledger.activeIds ↔ id ∈ (files.take k).map (·.id)

theorem SameApplied.appliedPrefix {before after : Database} (same : SameApplied before after)
    {files : List MigrationFile} {k : Nat} (start : AppliedPrefix files k before.ledger) :
    AppliedPrefix files k after.ledger :=
  ⟨start.1, fun id => (same.1 id).trans (start.2 id)⟩

section Order
variable {directory : MigrationsDirectory} {files : List MigrationFile} {k : Nat}

/-- The ids of the discovered files are pairwise different. -/
theorem ids_nodup (found : discoverMigrationFiles directory = .ok files) :
    (files.map (·.id)).Nodup := by
  refine List.pairwise_map.mpr ((discoverMigrationFiles_ascending found).imp ?_)
  intro file later before same
  rw [Before, same] at before
  exact lt_irrefl _ before

/-- What stands behind the first `k` files is not among them. -/
theorem id_mem_drop {n : Nat} (nodup : (files.map (·.id)).Nodup) {id : Units}
    (member : id ∈ ((files.take n).drop k).map (·.id)) : id ∉ (files.take k).map (·.id) := by
  intro early
  rw [List.map_drop, List.map_take] at member
  rw [List.map_take] at early
  rw [← List.take_append_drop k (files.map (·.id))] at nodup
  refine (List.nodup_append.mp nodup).2.2 id early id ?_ rfl
  rw [List.drop_take] at member
  exact List.mem_of_mem_take member

theorem take_max_append (m : Nat) :
    files.take (max k m) = files.take k ++ (files.take m).drop k := by
  rcases Nat.le_total m k with within | beyond
  · rw [Nat.max_eq_left within, List.drop_eq_nil_of_le (by rw [List.length_take]; omega),
      List.append_nil]
  · rw [Nat.max_eq_right beyond]
    conv_lhs => rw [← List.take_append_drop k (files.take m)]
    rw [List.take_take, Nat.min_eq_left beyond]

end Order

section Up
variable {files : List MigrationFile} {k : Nat} {active : List LedgerRow}

/-- From the first `k` files applied, the next ones in their order. -/
def Advanced (files : List MigrationFile) (k : Nat) (before after : Database) : Prop :=
  ∃ m, k ≤ m ∧ AppliedPrefix files m after.ledger ∧
    after.history = before.history ++ ((files.take m).drop k).flatMap appliedChanges

theorem Advanced.refl {before after : Database} (same : SameApplied before after)
    (start : AppliedPrefix files k before.ledger) : Advanced files k before after := by
  refine ⟨k, Nat.le_refl _, same.appliedPrefix start, ?_⟩
  rw [List.drop_eq_nil_of_le (by rw [List.length_take]; omega)]
  simp [same.2]

theorem foldl_applied (database : Database) (pending : List MigrationFile) :
    (pending.foldl Database.applied database).history =
        database.history ++ pending.flatMap appliedChanges ∧
      ∀ id, id ∈ (pending.foldl Database.applied database).ledger.activeIds ↔
        id ∈ database.ledger.activeIds ∨ id ∈ pending.map (·.id) := by
  induction pending generalizing database with
  | nil => simp
  | cons file rest ih =>
    obtain ⟨history, ids⟩ := ih (database.applied file)
    refine ⟨?_, fun id => ?_⟩
    · rw [List.foldl_cons, history]
      simp [Database.applied]
    · rw [List.foldl_cons, ids, Database.applied, Ledger.mem_activeIds_upsert, List.map_cons,
        List.mem_cons]
      tauto

/-- The loop of `up` skips what is applied and applies what comes after. -/
theorem foldl_passed (database : Database)
    (known : ∀ id, hasId active id ↔ id ∈ (files.take k).map (·.id))
    (nodup : (files.map (·.id)).Nodup) (m : Nat) :
    (files.take m).foldl (passed active) database =
      ((files.take m).drop k).foldl Database.applied database := by
  have skip : ∀ (early : List MigrationFile) (database : Database),
      (∀ file ∈ early, hasId active file.id) → early.foldl (passed active) database = database := by
    intro early
    induction early with
    | nil => exact fun _ _ => rfl
    | cons file rest ih =>
      intro database applied
      rw [List.foldl_cons, passed, if_pos (applied file List.mem_cons_self)]
      exact ih database fun other member => applied other (List.mem_cons_of_mem _ member)
  conv_lhs => rw [← List.take_append_drop k (files.take m)]
  rw [List.foldl_append, skip ((files.take m).take k)]
  · apply List.foldl_ext
    intro database file member
    rw [passed, if_neg]
    exact fun applied => id_mem_drop nodup (List.mem_map_of_mem member) ((known _).mp applied)
  · intro file member
    rw [List.take_take] at member
    exact (known _).mpr (List.mem_map_of_mem
      (List.take_subset_take_left _ (Nat.min_le_left _ _) member))

theorem advanced_foldl_passed {database : Database} (start : AppliedPrefix files k database.ledger)
    (known : ∀ id, hasId active id ↔ id ∈ (files.take k).map (·.id))
    (nodup : (files.map (·.id)).Nodup) {m : Nat} (within : m ≤ files.length) :
    Advanced files k database ((files.take m).foldl (passed active) database) := by
  rw [foldl_passed database known nodup]
  obtain ⟨history, ids⟩ := foldl_applied database ((files.take m).drop k)
  refine ⟨max k m, Nat.le_max_left _ _, ⟨Nat.max_le.mpr ⟨start.1, within⟩, fun id => ?_⟩, ?_⟩
  · rw [ids, start.2, take_max_append, List.map_append, List.mem_append]
  · rw [history, take_max_append, List.drop_left' (by rw [List.length_take]; have := start.1; omega)]

end Up

section Down
variable {files : List MigrationFile} {k : Nat} {scripts : List DownScript}

/-- From the first `k` files applied, the last ones reverted, newest first. -/
def Reverted (files : List MigrationFile) (scripts : List DownScript) (k : Nat)
    (before after : Database) : Prop :=
  ∃ m, m ≤ k ∧ AppliedPrefix files m after.ledger ∧
    after.history = before.history ++
      ((files.take k).drop m).reverse.flatMap fun file => revertedChanges scripts file.id

theorem Reverted.refl {before after : Database} (same : SameApplied before after)
    (start : AppliedPrefix files k before.ledger) : Reverted files scripts k before after := by
  refine ⟨k, Nat.le_refl _, same.appliedPrefix start, ?_⟩
  rw [List.drop_eq_nil_of_le (by rw [List.length_take]; omega)]
  simp [same.2]

/-- The applied rows in the order of their ids are the files in their order. -/
theorem orderedRows_ids {directory : MigrationsDirectory}
    (found : discoverMigrationFiles directory = .ok files) {database : Database}
    (start : AppliedPrefix files k database.ledger) :
    (orderedRows database.selectActive).map (·.migrationId) = (files.take k).map (·.id) := by
  have members : ((orderedRows database.selectActive).map (·.migrationId)).Perm
      ((files.take k).map (·.id)) := by
    refine (((List.perm_insertionSort _ _).map _).trans database.selectActive_ids).trans ?_
    refine (List.perm_ext_iff_of_nodup database.ledger.activeIds_nodup ?_).mpr start.2
    rw [List.map_take]
    exact (ids_nodup found).sublist (List.take_sublist _ _)
  have ascending : ((files.take k).map (·.id)).Pairwise NotAfter := by
    refine List.pairwise_map.mpr (((discoverMigrationFiles_ascending found).sublist
      (List.take_sublist _ _)).imp fun before => ?_)
    exact le_of_lt before
  have sorted : ((orderedRows database.selectActive).map (·.migrationId)).Pairwise NotAfter := by
    have : Std.Total fun left right : LedgerRow => NotAfter left.migrationId right.migrationId :=
      ⟨fun left right => le_total _ _⟩
    have : IsTrans LedgerRow fun left right => NotAfter left.migrationId right.migrationId :=
      ⟨fun _ _ _ => le_trans⟩
    exact List.pairwise_map.mpr (List.pairwise_insertionSort _ _)
  refine List.Perm.eq_of_pairwise (fun left right _ _ below above => ?_) sorted ascending members
  exact List.map_injective_iff.mpr (fun u v => UInt16.toNat_inj.mp) (le_antisymm below above)

/-- Whatever is asked for, the targets are the newest applied rows, newest first. -/
theorem selectRollbackTargets_eq_ok {active targets : List LedgerRow} {request : RollbackRequest}
    (h : selectRollbackTargets active request = .ok targets) :
    ∃ n, targets = ((orderedRows active).drop n).reverse := by
  unfold selectRollbackTargets at h
  simp only at h
  cases requested : request.toId with
  | some toId =>
    rw [requested] at h
    simp only at h
    cases parsed : parseMigrationId (toId ++ SQL_SUFFIX) with
    | error error =>
      rw [parsed] at h
      cases h
    | ok id =>
      rw [parsed] at h
      cases position : (orderedRows active).findIdx? (·.migrationId = toId) with
      | none =>
        simp only [position, bind, Except.bind] at h
        cases h
      | some index =>
        simp only [position, bind, Except.bind] at h
        exact ⟨index + 1, (Except.ok.inj h).symm⟩
  | none =>
    rw [requested] at h
    simp only at h
    split at h
    · cases h
    · exact ⟨_, (Except.ok.inj h).symm⟩

variable (scripts) in
theorem foldl_reverted (database : Database) (ids : List Units) :
    (ids.foldl (Database.reverted scripts) database).history =
        database.history ++ ids.flatMap (revertedChanges scripts) ∧
      ∀ id, id ∈ (ids.foldl (Database.reverted scripts) database).ledger.activeIds ↔
        id ∈ database.ledger.activeIds ∧ id ∉ ids := by
  induction ids generalizing database with
  | nil => simp
  | cons first rest ih =>
    obtain ⟨history, members⟩ := ih (database.reverted scripts first)
    refine ⟨?_, fun id => ?_⟩
    · rw [List.foldl_cons, history]
      simp [Database.reverted]
    · rw [List.foldl_cons, members, Database.reverted, Ledger.mem_activeIds_markRolledBack,
        List.mem_cons]
      tauto

variable (scripts) in
/-- What is reverted in this order leaves a prefix. -/
theorem reverted_foldl {directory : MigrationsDirectory}
    (found : discoverMigrationFiles directory = .ok files) {database : Database}
    (start : AppliedPrefix files k database.ledger) (n : Nat) :
    Reverted files scripts k database
      ((((files.take k).drop n).reverse.map (·.id)).foldl (Database.reverted scripts) database) := by
  obtain ⟨history, ids⟩ := foldl_reverted scripts database
    (((files.take k).drop n).reverse.map (·.id))
  refine ⟨min n k, Nat.min_le_right _ _, ⟨by have := start.1; omega, fun id => ?_⟩, ?_⟩
  · have parts : (files.take k).map (·.id) =
        (files.take (min n k)).map (·.id) ++ ((files.take k).drop n).map (·.id) := by
      rw [← List.map_append, ← List.take_take, List.take_append_drop]
    have nodup : ((files.take k).map (·.id)).Nodup := by
      rw [List.map_take]
      exact (ids_nodup found).sublist (List.take_sublist _ _)
    rw [parts] at nodup
    rw [ids, start.2, parts, List.mem_append, List.map_reverse, List.mem_reverse]
    constructor
    · rintro ⟨early | late, kept⟩
      · exact early
      · exact absurd late kept
    · exact fun early => ⟨Or.inl early, fun late =>
        (List.nodup_append.mp nodup).2.2 id early id late rfl⟩
  · rw [history, List.flatMap_map]
    congr 3
    rcases Nat.le_total n k with within | beyond
    · rw [Nat.min_eq_left within]
    · rw [Nat.min_eq_right beyond, List.drop_eq_nil_of_le (by rw [List.length_take]; omega),
        List.drop_eq_nil_of_le (by rw [List.length_take]; omega)]

/-- The first `m` targets are the ids of a newest part, newest first. -/
theorem targets_take {active targets : List LedgerRow} {n : Nat}
    (ids : (orderedRows active).map (·.migrationId) = (files.take k).map (·.id))
    (chosen : targets = ((orderedRows active).drop n).reverse) (m : Nat) :
    ∃ j, (targets.take m).map (·.migrationId) = ((files.take k).drop j).reverse.map (·.id) := by
  rw [chosen, List.take_reverse, List.drop_drop, List.map_reverse, List.map_drop, ids]
  exact ⟨_, by rw [List.map_reverse, List.map_drop]⟩

end Down

section Drift
variable {files : List MigrationFile}

theorem hasId_iff {rows : List LedgerRow} {id : Units} :
    hasId rows id ↔ id ∈ rows.map (·.migrationId) := by
  simp [hasId, List.mem_map]

theorem highestAppliedIndex_append (files : List MigrationFile) (file : MigrationFile)
    (active : List LedgerRow) : highestAppliedIndex (files ++ [file]) active =
      if hasId active file.id then (files.length : Int) else highestAppliedIndex files active := by
  simp [highestAppliedIndex, List.zipIdx_append]

/-- No file behind the highest applied index is applied, and the file at it is. -/
theorem highestAppliedIndex_spec (files : List MigrationFile) (active : List LedgerRow) :
    (highestAppliedIndex files active = -1 ∧ ∀ file ∈ files, hasId active file.id = false) ∨
      ∃ before file after, files = before ++ file :: after ∧
        highestAppliedIndex files active = before.length ∧ hasId active file.id ∧
        ∀ later ∈ after, hasId active later.id = false := by
  induction files using List.reverseRecOn with
  | nil => exact Or.inl ⟨rfl, nofun⟩
  | append_singleton files last ih =>
    rw [highestAppliedIndex_append]
    split
    · rename_i applied
      exact Or.inr ⟨files, last, [], rfl, rfl, applied, nofun⟩
    · rename_i pending
      rw [Bool.not_eq_true] at pending
      rcases ih with ⟨none, absent⟩ | ⟨before, file, after, rfl, highest, applied, absent⟩
      · refine Or.inl ⟨none, fun file member => ?_⟩
        rcases List.mem_append.mp member with early | new
        · exact absent file early
        · rw [List.mem_singleton.mp new]
          exact pending
      · refine Or.inr ⟨before, file, after ++ [last], by simp, highest, applied, ?_⟩
        intro later member
        rcases List.mem_append.mp member with early | new
        · exact absent later early
        · rw [List.mem_singleton.mp new]
          exact pending

theorem forM_eq_ok {ι ε : Type} {items : List ι} {check : ι → Except ε PUnit}
    (h : items.forM check = .ok ()) : ∀ item ∈ items, check item = .ok () := by
  induction items with
  | nil => exact nofun
  | cons first rest ih =>
    change (check first >>= fun _ => rest.forM check) = _ at h
    cases passes : check first with
    | error error =>
      rw [passes] at h
      cases h
    | ok u =>
      rw [passes] at h
      intro item member
      rcases List.mem_cons.mp member with rfl | later
      · exact passes
      · exact ih h item later

end Drift

section Runs
variable {runner : MigrationRunner} {files : List MigrationFile} {database : Database} {k : Nat}

/-- What a run may make of a ledger in which the first `k` files are applied. -/
def Keeps (runner : MigrationRunner) (files : List MigrationFile) (k : Nat)
    (before after : Database) : Command → Prop
  | .up => Advanced files k before after
  | .down _ => Reverted files (runner.downScripts.toOption.getD []) k before after

theorem Keeps.appliedPrefix {k : Nat} {before after : Database} {command : Command}
    (keeps : Keeps runner files k before after command) : ∃ m, AppliedPrefix files m after.ledger := by
  cases command with
  | up =>
    obtain ⟨m, -, ahead, -⟩ := keeps
    exact ⟨m, ahead⟩
  | down request =>
    obtain ⟨m, -, back, -⟩ := keeps
    exact ⟨m, back⟩

theorem hasId_selectActive (start : AppliedPrefix files k database.ledger) (id : Units) :
    hasId database.selectActive id ↔ id ∈ (files.take k).map (·.id) := by
  rw [hasId_iff, database.selectActive_ids.mem_iff]
  exact start.2 id

/-- One run, whatever becomes of its requests. -/
theorem keeps_after (found : runner.list = .ok files)
    (start : AppliedPrefix files k database.ledger) (run : Run) :
    Keeps runner files k database (database.after runner run) run.command := by
  refine settled_after (P := fun after => Keeps runner files k database after run.command)
    (fun isUp => ?_) fun request isDown => ?_
  · rw [isUp]
    refine wpE_up found (fun after same => Advanced.refl same start) ?_
    intro after same _ m within
    have start := same.appliedPrefix start
    obtain ⟨n, forward, ahead, history⟩ :=
      advanced_foldl_passed start (hasId_selectActive start) (ids_nodup found) within
    exact ⟨n, forward, ahead, by rw [history, same.2]⟩
  · rw [isDown]
    refine wpE_down found request (Reverted.refl (SameApplied.refl _) start) ?_
    intro _ targets chosen m
    obtain ⟨n, newest⟩ := selectRollbackTargets_eq_ok chosen
    obtain ⟨j, ids⟩ := targets_take (orderedRows_ids found start) newest m
    rw [ids]
    exact reverted_foldl _ found start j

theorem appliedPrefix_afterAll (found : runner.list = .ok files) {database : Database}
    (start : ∃ k, AppliedPrefix files k database.ledger) (runs : List Run) :
    ∃ k, AppliedPrefix files k (database.afterAll runner runs).ledger := by
  induction runs generalizing database with
  | nil => exact start
  | cons run rest ih =>
    obtain ⟨k, start⟩ := start
    exact ih (keeps_after found start run).appliedPrefix

/-- After each run of a sequence the applied migrations are a prefix of the files again,
and the run executed pending files in their order, or down scripts of the newest applied
files, newest first. -/
theorem keeps_prefix_at_each_run (found : runner.list = .ok files) {database : Database} {k : Nat}
    (start : AppliedPrefix files k database.ledger) (runs : List Run) (run : Run) :
    ∃ n, AppliedPrefix files n (database.afterAll runner runs).ledger ∧
      Keeps runner files n (database.afterAll runner runs)
        (database.afterAll runner (runs ++ [run])) run.command := by
  obtain ⟨n, before⟩ := appliedPrefix_afterAll found ⟨k, start⟩ runs
  refine ⟨n, before, ?_⟩
  have last : database.afterAll runner (runs ++ [run]) =
      (database.afterAll runner runs).after runner run := by
    simp [Database.afterAll]
  rw [last]
  exact keeps_after found before run

/-- Two files and a down script for the second. -/
def twoFiles : MigrationRunner where
  directory := {
    path := units "migrations"
    entries := [units "0001_b.sql", units "down", units "0000_a.sql"]
    readFile := .ok
    splitSqlStatements := fun content => .ok [content]
    computeMigrationChecksum := id }
  downScripts := .ok [⟨units "0001_b", units "0001_b.down.sql", .reversible, .none,
    units "Drops b.", [units "DROP TABLE b"]⟩]

def emptyDatabase : Database := ⟨.empty, false, fun _ _ => true, []⟩

/-- Both files are applied, and the second is reverted in a run in which the answer to the
commit is lost. -/
theorem keeps_prefix_at_each_run_two_files :
    ∃ files, twoFiles.list = .ok files ∧
      AppliedPrefix files 0 emptyDatabase.ledger ∧
      ∃ n, AppliedPrefix files n
          (emptyDatabase.afterAll twoFiles [⟨.up, fun _ => .performed⟩]).ledger ∧
        Keeps twoFiles files n (emptyDatabase.afterAll twoFiles [⟨.up, fun _ => .performed⟩])
          (emptyDatabase.afterAll twoFiles ([⟨.up, fun _ => .performed⟩] ++
            [⟨.down ⟨none, none, false⟩, fun n => if n = 15 then .lost .typeError
              else .performed⟩])) (.down ⟨none, none, false⟩) := by
  have start : ∀ files, AppliedPrefix files 0 emptyDatabase.ledger :=
    fun files => ⟨Nat.zero_le _, fun id => by simp [emptyDatabase, Ledger.empty,
      Ledger.activeIds, Ledger.active]⟩
  exact ⟨_, rfl, start _, keeps_prefix_at_each_run rfl (start _) _
    ⟨.down ⟨none, none, false⟩, fun n => if n = 15 then .lost .typeError else .performed⟩⟩

example : ((emptyDatabase.afterAll twoFiles [⟨.up, fun _ => .performed⟩,
    ⟨.down ⟨none, some (units "0000_a"), false⟩, fun _ => .performed⟩]).ledger.activeIds) =
      [units "0000_a"] := by decide

end Runs

end Migrations
