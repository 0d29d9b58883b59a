import Hakawi.Purge.PurgeJob
import Hakawi.Uploads.Ownership
import Mathlib.Data.List.Sort

/-!
# Uploads that are marked as deleted

A scheduled job deletes the objects of rows that were marked long ago, another deletes the
rows. A key has an object, and any number of rows may name it.
-/

namespace Uploads
open Common Store Effects Purge

/-- What the query of the job selects of a row. -/
structure Orphan where
  id : String
  filename : String
  deletedAt : Int
  deriving DecidableEq

inductive StorageCall where
  /-- A call of the upload service. -/
  | upload (call : Call)
  /-- `SELECT ... WHERE deleted_at < $1 ORDER BY deleted_at ASC` -/
  | selectOrphaned (cutoff : Int)
  /-- `DeleteObjectCommand` of the job -/
  | sweepObject (key : String)
  /-- `SELECT * FROM purge_soft_deleted($1, $2, $3)` -/
  | purgeSoftDeleted (batchSize retentionDays : Int) (dryRun : Bool)

abbrev StorageCall.Answer : StorageCall → Type
  | upload call => call.Answer
  | selectOrphaned _ => Except Exception (List Orphan)
  | sweepObject _ => Except Exception Unit
  | purgeSoftDeleted _ _ _ => Except Exception (Except SqlError (List (String × Nat)))

/-- The uploads with the time each row was marked as deleted, and the other tables. -/
structure Storage where
  base : World
  deletedAt : String → Option Int
  others : Database

namespace Storage

/-- A row that is not marked names the key. -/
def Live (storage : Storage) (key : String) : Prop :=
  ∃ row ∈ storage.base.uploads.rows, row.filename = key ∧ storage.deletedAt row.id = none

instance (storage : Storage) (key : String) : Decidable (storage.Live key) :=
  inferInstanceAs (Decidable (∃ row ∈ _, _ ∧ _))

def orphans (storage : Storage) (cutoff : Int) : List Orphan :=
  (storage.base.uploads.rows.filterMap fun row =>
    (storage.deletedAt row.id).bind fun deletedAt =>
      if deletedAt < cutoff then some ⟨row.id, row.filename, deletedAt⟩ else none).insertionSort
    fun a b => a.deletedAt ≤ b.deletedAt

/-- An upload as a row of the tables. -/
def record (storage : Storage) (row : Upload) : Record where
  id := row.id
  deletedAt := storage.deletedAt row.id
  references := (row.uploadedById.map ("uploaded_by_id", ·)).toList ++
    (row.storyId.map ("story_id", ·)).toList

def tables (storage : Storage) : Database where
  present := storage.others.present
  rows := fun table =>
    if table = .uploads then storage.base.uploads.rows.map storage.record
    else storage.others.rows table

/-- The uploads that are still in the tables. -/
def restrict (storage : Storage) (after : Database) : Storage where
  base := { storage.base with
    uploads := storage.base.uploads.filter fun row => (after.rows .uploads).any (·.id = row.id) }
  deletedAt := storage.deletedAt
  others := after

def later (storage : Storage) (elapsed : Nat) : Storage :=
  { storage with base := storage.base.later elapsed }

end Storage

/-- A row that is inserted is not marked. -/
def storageExec (choice : Choice) (storage : Storage) :
    (call : StorageCall) → call.Answer × Storage
  | .upload call =>
    let (answer, base) := exec choice storage.base call
    (answer, { storage with
      base
      deletedAt := fun id =>
        if storage.base.uploads.rows.any (·.id = id) then storage.deletedAt id else none })
  | .selectOrphaned cutoff =>
    let storage := storage.later choice.elapsed
    match choice.outcome with
    | .performed => (.ok (storage.orphans cutoff), storage)
    | _ => (.error connectionFailed, storage)
  | .sweepObject key =>
    let (answer, base) := exec choice storage.base (.deleteObject key)
    (answer, { storage with base })
  | .purgeSoftDeleted batchSize retentionDays dryRun =>
    let storage := storage.later choice.elapsed
    let (result, after) := Purge.purgeSoftDeleted batchSize retentionDays dryRun
      storage.base.clock storage.tables
    match choice.outcome with
    | .performed => (.ok result, storage.restrict after)
    | .refused => (.error connectionFailed, storage)
    | .lost => (.error connectionFailed, storage.restrict after)

abbrev StorageMethod (α : Type) : Type := Fallible StorageCall StorageCall.Answer Exception α

/-- A method of the upload service. -/
def ofUpload {α : Type} (method : Method α) : StorageMethod α :=
  ExceptT.mk (method.run.expand fun call => .call (.upload call) .done)

/-- `{ deleted, errors, total }` -/
structure CleanupResult where
  deleted : Nat := 0
  errors : Nat := 0
  total : Nat
  deriving DecidableEq

namespace StorageCleanupService

/-- One pass of the loop: a failure is counted. -/
def sweep (result : CleanupResult) (row : Orphan) : StorageMethod CleanupResult :=
  ExceptT.mk (.call (.sweepObject row.filename) fun
    | .ok () => .done (.ok { result with deleted := result.deleted + 1 })
    | .error _ => .done (.ok { result with errors := result.errors + 1 }))

/-- `retention` is `retentionDays` in milliseconds, `none` if it is `NaN`. -/
def runCleanup (retention : Option Int) : StorageMethod CleanupResult := do
  let now ← ofUpload (call .now)
  match retention with
  | none => throw .typeError
  | some retention => do
    let orphanedRows ← ExceptT.mk (.call (.selectOrphaned (now - retention)) .done)
    (orphanedRows : List Orphan).foldlM sweep { total := orphanedRows.length }

end StorageCleanupService

/-- What is run, in any order and any number of times. -/
inductive StorageTask where
  | confirmUpload (filename originalName mimetype : String) (size : Int)
      (uploadedById storyId : Option String)
  | deleteFile (filename userId : String) (isSuperAdmin : Bool)
  | runCleanup
  | purgeSoftDeleted (batchSize retentionDays : Int) (dryRun : Bool)

def StorageTask.handler (config : Config) (retention : Option Int) :
    StorageTask → StorageMethod Unit
  | confirmUpload filename originalName mimetype size uploadedById storyId => do
    let _ ← ofUpload (UploadService.confirmUpload config filename originalName mimetype size
      uploadedById storyId)
  | deleteFile filename userId isSuperAdmin =>
    ofUpload (UploadService.deleteFile filename userId isSuperAdmin)
  | runCleanup => do
    let _ ← StorageCleanupService.runCleanup retention
  | purgeSoftDeleted batchSize retentionDays dryRun => do
    let _ ← ExceptT.mk (.call (.purgeSoftDeleted batchSize retentionDays dryRun) .done)

abbrev StorageProgram : Type := Program StorageCall StorageCall.Answer (Except Exception Unit)

abbrev StoragePool : Type :=
  Pool Storage StorageCall StorageCall.Answer (Except Exception Unit)

def storagePool (config : Config) (retention : Option Int) (storage : Storage)
    (tasks : List StorageTask) : StoragePool :=
  ⟨storage, tasks.map fun task => (task.handler config retention).run⟩

/-- An object is deleted by the job only if no live row names its key, and a purge takes a
marked row only after its object was deleted. -/
def SafeCall (choice : Choice) (storage : Storage) : StorageCall → Prop
  | .sweepObject key => choice.outcome ≠ .refused → ¬ storage.Live key
  | .purgeSoftDeleted batchSize retentionDays dryRun =>
    ∀ row ∈ storage.base.uploads.rows,
      row ∉ (storageExec choice storage
        (.purgeSoftDeleted batchSize retentionDays dryRun)).2.base.uploads.rows →
      storage.deletedAt row.id ≠ none → row.filename ∈ storage.base.deleted
  | _ => True

/-! A job remembers the keys it has read and not yet dealt with. -/

def pending (keys : List String) : (call : StorageCall) → call.Answer → List String
  | .selectOrphaned _, .ok rows => rows.map (·.filename)
  | .sweepObject _, _ => keys.tail
  | _, _ => keys

/-- The job deletes the objects of the keys it has read, one after the other. -/
def sweeping : Protocol StorageCall StorageCall.Answer (List String) where
  allowed keys
    | .sweepObject key => keys.head? = some key
    | _ => True
  next := pending

/-- No row that is read by a job has its key in common with a live row, and no row is
inserted with a key that a job has still to deal with. -/
def Apart (_thread : Nat) (_choice : Choice) (storage : Storage) (memory : List (List String))
    (_keys : List String) : StorageCall → Prop
  | .selectOrphaned cutoff => ∀ row ∈ storage.orphans cutoff, ¬ storage.Live row.filename
  | .upload (.insertUpload data) => ∀ keys ∈ memory, data.filename ∉ keys
  | _ => True

instance (thread : Nat) (choice : Choice) (storage : Storage) (memory : List (List String))
    (keys : List String) (call : StorageCall) :
    Decidable (Apart thread choice storage memory keys call) := by
  unfold Apart
  split <;> infer_instance

instance (choice : Choice) (storage : Storage) (call : StorageCall) :
    Decidable (SafeCall choice storage call) := by
  unfold SafeCall
  split <;> infer_instance

section Follows
variable (config : Config) (retention : Option Int)

/-- The calls of the upload service and of a purge leave the memory of a job alone. -/
def Elsewhere : StorageCall → Prop
  | .upload _ | .purgeSoftDeleted _ _ _ => True
  | _ => False

theorem ofUpload_elsewhere {α : Type} (method : Method α) : OnlyE Elsewhere (ofUpload method) :=
  ⟨Program.Only.expand _ (Program.only_any method.run) fun _ _ => ⟨trivial, fun _ => trivial⟩⟩

theorem follows_of_elsewhere {α : Type} {method : StorageMethod α}
    (elsewhere : OnlyE Elsewhere method) (keys : List String) :
    sweeping.Follows keys method.run := by
  refine elsewhere.only.wp (fun call known Q all => ?_) fun _ => trivial
  cases call with
  | upload | purgeSoftDeleted => exact ⟨trivial, all⟩
  | selectOrphaned | sweepObject => exact known.elim

theorem follows_sweep (rows : List Orphan) (result : CleanupResult) :
    wpE sweeping.spec (rows.foldlM StorageCleanupService.sweep result) (fun _ _ => True)
      (rows.map (·.filename)) := by
  induction rows generalizing result with
  | nil => trivial
  | cons row rest ih =>
    rw [List.foldlM_cons, wpE_bind]
    refine ⟨rfl, fun answer => ?_⟩
    cases answer with
    | ok u => exact ih _
    | error error => exact ih _

theorem follows_runCleanup :
    wpE sweeping.spec (StorageCleanupService.runCleanup retention) (fun _ _ => True) [] := by
  unfold StorageCleanupService.runCleanup
  rw [wpE_bind]
  refine (ofUpload_elsewhere (call .now)).only.wp (fun call known Q all => ?_) fun result => ?_
  · cases call with
    | upload | purgeSoftDeleted => exact ⟨trivial, all⟩
    | selectOrphaned | sweepObject => exact known.elim
  · cases result with
    | error error => trivial
    | ok now =>
      cases retention with
      | none => trivial
      | some retention =>
        simp only
        rw [wpE_bind]
        refine ⟨trivial, fun answer => ?_⟩
        cases answer with
        | ok rows => exact follows_sweep rows _
        | error error => trivial

theorem follows_handler (task : StorageTask) :
    sweeping.Follows [] (task.handler config retention).run := by
  cases task with
  | confirmUpload =>
    exact follows_of_elsewhere ((ofUpload_elsewhere _).bind fun _ => onlyE_pure _) []
  | deleteFile => exact follows_of_elsewhere (ofUpload_elsewhere _) []
  | runCleanup =>
    change wpE sweeping.spec (StorageCleanupService.runCleanup retention >>= _) _ _
    rw [wpE_bind]
    refine wpE_mono sweeping.spec_monotone (fun result _ _ => ?_) (follows_runCleanup retention)
    cases result <;> trivial
  | purgeSoftDeleted batchSize retentionDays dryRun =>
    have only : OnlyE Elsewhere (StorageTask.handler config retention
        (.purgeSoftDeleted batchSize retentionDays dryRun)) :=
      ⟨trivial, fun answer => by cases answer <;> trivial⟩
    exact follows_of_elsewhere only []

end Follows

section Steps
variable {choice : Choice} {storage : Storage}

/-- A row after a call was there before, or it is the one inserted. -/
theorem mem_of_exec {world : World} {op : Call} {row : Upload}
    (member : row ∈ (exec choice world op).2.uploads.rows) :
    row ∈ world.uploads.rows ∨ ∃ data, op = .insertUpload data ∧ row.filename = data.filename := by
  have still (reads : Reads op) : row ∈ world.uploads.rows :=
    (exec_reads reads choice world).uploads ▸ member
  cases op with
  | now | randomUUID | getSignedUrl | findUpload => exact Or.inl (still trivial)
  | insertUpload data =>
    rcases exec_cases choice world (.insertUpload data) with same | same
    · rw [same] at member
      exact Or.inl member
    · rw [same, World.perform] at member
      split at member
      · exact Or.inl member
      · rename_i uploads inserted
        rw [Keyed.insert?] at inserted
        split at inserted
        · cases inserted
        · cases inserted
          rcases List.mem_append.mp member with old | new
          · exact Or.inl old
          · rw [List.mem_singleton.mp new]
            exact Or.inr ⟨data, rfl, rfl⟩
  | deleteObject key =>
    rw [(exec_deleteObject choice world key).1] at member
    exact Or.inl member
  | deleteUploads filename =>
    rcases (exec_deleteUploads choice world filename).2 with same | filtered
    · rw [same] at member
      exact Or.inl member
    · rw [filtered] at member
      exact Or.inl (List.mem_filter.mp member).1

/-- A key becomes live by an insertion only. -/
theorem live_upload {op : Call} {key : String}
    (live : (storageExec choice storage (.upload op)).2.Live key) :
    storage.Live key ∨ ∃ data, op = .insertUpload data ∧ data.filename = key := by
  obtain ⟨row, member, named, unmarked⟩ := live
  rcases mem_of_exec member with old | ⟨data, inserts, same⟩
  · refine Or.inl ⟨row, old, named, ?_⟩
    have known : storage.base.uploads.rows.any (·.id = row.id) := by
      simpa using ⟨row, old, rfl⟩
    change (if _ then _ else _) = none at unmarked
    rwa [if_pos known] at unmarked
  · exact Or.inr ⟨data, inserts, same.symm.trans named⟩

theorem uploads_sweep (key : String) :
    (storageExec choice storage (.sweepObject key)).2.base.uploads = storage.base.uploads :=
  (exec_deleteObject choice storage.base key).1

/-- The purge throws and leaves every upload where it is. -/
theorem uploads_purge (batchSize retentionDays : Int) (dryRun : Bool) :
    (storageExec choice storage (.purgeSoftDeleted batchSize retentionDays dryRun)).2.base.uploads.rows =
      storage.base.uploads.rows := by
  have kept : ((storage.later choice.elapsed).restrict
      (storage.later choice.elapsed).tables).base.uploads.rows = storage.base.uploads.rows := by
    refine List.filter_eq_self.mpr fun row member => ?_
    simp only [Storage.tables, if_true, List.any_map, List.any_eq_true]
    exact ⟨row, member, by simp [Storage.record]⟩
  obtain ⟨error, thrown⟩ := Purge.purgeSoftDeleted_throws batchSize retentionDays dryRun
    (storage.later choice.elapsed).base.clock (storage.later choice.elapsed).tables
  simp only [storageExec, thrown]
  cases choice.outcome with
  | performed => exact kept
  | refused => rfl
  | lost => exact kept

theorem deletedAt_purge (batchSize retentionDays : Int) (dryRun : Bool) :
    (storageExec choice storage (.purgeSoftDeleted batchSize retentionDays dryRun)).2.deletedAt =
      storage.deletedAt := by
  unfold storageExec
  simp only
  split <;> rfl

theorem live_congr {after : Storage} {key : String}
    (uploads : after.base.uploads.rows = storage.base.uploads.rows)
    (marks : after.deletedAt = storage.deletedAt) : after.Live key ↔ storage.Live key := by
  rw [Storage.Live, Storage.Live, uploads, marks]

/-- No key that a job has still to deal with is live. -/
def KeptApart (storage : Storage) (memory : List (List String)) : Prop :=
  ∀ keys ∈ memory, ∀ key ∈ keys, ¬ storage.Live key

/-- One call is safe, and keeps the keys apart. -/
theorem keptApart_step {memory : List (List String)} {thread : Nat} {keys : List String}
    {call : StorageCall} (remembers : memory[thread]? = some keys)
    (apart : KeptApart storage memory) (allowed : sweeping.allowed keys call)
    (meets : Apart thread choice storage memory keys call) :
    SafeCall choice storage call ∧ KeptApart (storageExec choice storage call).2
      (memory.set thread (pending keys call (storageExec choice storage call).1)) := by
  have own : keys ∈ memory := List.mem_of_getElem? remembers
  cases call with
  | upload op =>
    refine ⟨trivial, fun others member key known live => ?_⟩
    have before : others ∈ memory := by
      rcases List.mem_or_eq_of_mem_set member with old | new
      · exact old
      · rw [new]
        exact own
    rcases live_upload live with already | ⟨data, rfl, rfl⟩
    · exact apart others before key known already
    · exact meets others before known
  | selectOrphaned cutoff =>
    refine ⟨trivial, fun others member key known live => ?_⟩
    have same : storage.Live key := by
      unfold storageExec at live
      simp only at live
      split at live <;> exact live
    have answers : (storageExec choice storage (.selectOrphaned cutoff)).1 =
          .ok (storage.orphans cutoff) ∨
        ∃ error, (storageExec choice storage (.selectOrphaned cutoff)).1 = .error error := by
      unfold storageExec
      simp only
      split
      · exact Or.inl rfl
      · exact Or.inr ⟨_, rfl⟩
    rcases List.mem_or_eq_of_mem_set member with old | new
    · exact apart others old key known same
    · rcases answers with rows | ⟨error, failed⟩
      · rw [new, rows] at known
        obtain ⟨row, found, rfl⟩ := List.mem_map.mp known
        exact meets row found same
      · rw [new, failed] at known
        exact apart keys own key known same
  | sweepObject key =>
    refine ⟨fun _ live => ?_, fun others member other known live => ?_⟩
    · exact apart keys own key (List.mem_of_mem_head? allowed) live
    · have same : storage.Live other := (live_congr (congrArg _ (uploads_sweep key)) rfl).mp live
      rcases List.mem_or_eq_of_mem_set member with old | new
      · exact apart others old other known same
      · rw [new] at known
        exact apart keys own other (List.mem_of_mem_tail known) same
  | purgeSoftDeleted batchSize retentionDays dryRun =>
    refine ⟨fun row present gone _ => ?_, fun others member key known live => ?_⟩
    · rw [uploads_purge] at gone
      exact absurd present gone
    · have same : storage.Live key :=
        (live_congr (uploads_purge _ _ _) (deletedAt_purge _ _ _)).mp live
      rcases List.mem_or_eq_of_mem_set member with old | new
      · exact apart others old key known same
      · rw [new] at known
        exact apart keys own key known same

end Steps

/-- In every interleaving in which no job reads a key of a live row, and none is confirmed
under a key that a job has still to deal with, the jobs delete no object of a live row, and
no marked row is purged before its object. -/
theorem safe_of_apart (config : Config) (retention : Option Int) (storage : Storage)
    (tasks : List StorageTask) (schedule : List (Nat × Choice))
    (apart : Pool.Observed storageExec sweeping Apart schedule
      (List.replicate (tasks.map fun task => (task.handler config retention).run).length [])
      (storagePool config retention storage tasks)) :
    Pool.EachCall storageExec SafeCall schedule (storagePool config retention storage tasks) := by
  have start : KeptApart storage
      (List.replicate (tasks.map fun task => (task.handler config retention).run).length []) := by
    intro keys member key known
    rw [List.eq_of_mem_replicate member] at known
    cases known
  have step : ∀ choice storage (memory : List (List String)) thread keys call,
      memory[thread]? = some keys → KeptApart storage memory → sweeping.allowed keys call →
      Apart thread choice storage memory keys call →
      SafeCall choice storage call ∧ KeptApart (storageExec choice storage call).2
        (memory.set thread (pending keys call (storageExec choice storage call).1)) :=
    fun _ _ _ _ _ _ remembers apart allowed meets => keptApart_step remembers apart allowed meets
  refine Pool.eachCall_of_observed step start (Pool.follow_replicate ?_ storage) apart
  intro program member
  obtain ⟨task, -, rfl⟩ := List.mem_map.mp member
  exact follows_handler config retention task

def anyConfig : Config := { toLowerCase := id }

/-- Two rows of one key, of which the first was marked long ago. -/
def twoRows : Storage where
  base := {
    clock := 100
    uploads := ⟨[
      ⟨⟨"a.png", "a.png", "image/png", 1, "a.png", none, some "layla", none⟩, "1"⟩,
      ⟨⟨"a.png", "a.png", "image/png", 1, "a.png", none, some "omar", none⟩, "2"⟩], by decide⟩
    deleted := [] }
  deletedAt := fun id => if id = "1" then some 10 else none
  others := emptyTables

/-- The job deletes the object that the second row names. -/
theorem sweeps_live_object :
    twoRows.Live "a.png" ∧
      (((storagePool anyConfig (some 50) twoRows [.runCleanup]).run storageExec
        [(0, {}), (0, {}), (0, {})]).state.base.deleted = ["a.png"]) ∧
      ¬ Pool.EachCall storageExec SafeCall [(0, {}), (0, {}), (0, {})]
        (storagePool anyConfig (some 50) twoRows [.runCleanup]) := by
  refine ⟨by decide, by decide, by decide⟩

/-- The first row alone. -/
def oneRow : Storage where
  base := {
    clock := 100
    uploads := ⟨[
      ⟨⟨"a.png", "a.png", "image/png", 1, "a.png", none, some "layla", none⟩, "1"⟩], by decide⟩
    deleted := [] }
  deletedAt := fun id => if id = "1" then some 10 else none
  others := emptyTables

/-- The job and an upload under another key. -/
theorem safe_one_row :
    Pool.EachCall storageExec SafeCall [(0, {}), (0, {}), (1, { random := "2" }), (0, {})]
      (storagePool anyConfig (some 50) oneRow
        [.runCleanup, .confirmUpload "b.png" "b.png" "image/png" 1 (some "omar") none]) :=
  safe_of_apart _ _ _ _ _ (by decide)

end Uploads
