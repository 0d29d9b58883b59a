import Hakawi.Html.Units
import Mathlib.Data.List.Lex
import Mathlib.Data.List.Sort

/-!
# Migration files

The files of the migrations directory, read in the order of their names. A list is
only discovered when its sequence numbers ascend, and then the ids ascend as well,
compared by code unit.
-/

namespace Migrations
open Html

inductive MigrationError where
  | structureError (message : Units) (migrationId : Option Units)
  | checksumMismatch (migrationId filename recordedChecksum expectedChecksum : Units)
  | ledgerDrift (message : Units) (drift : List Units)
  | notReversible (migrationId filename reversibility reason : Units)
  | execution (migrationId filename : Units) (statementIndex : Option Nat) (cause : Units)
  /-- What the driver throws. -/
  | database (message : Units)
  /-- A value the runner relies on is `undefined`. -/
  | typeError
  deriving DecidableEq, Repr

def number (n : Int) : Units := units (toString n)

namespace MigrationError

def message : MigrationError → Units
  | structureError message _ => message
  | checksumMismatch migrationId filename recordedChecksum expectedChecksum =>
    units "Migration " ++ migrationId ++ units " (" ++ filename ++
      units ") is already applied but its contents changed on disk. Recorded checksum " ++
      recordedChecksum ++ units " does not match the file checksum " ++ expectedChecksum ++
      units (". An applied migration must never be edited: restore the original file, " ++
        "or add a new numbered migration instead.")
  | ledgerDrift message _ => message
  | notReversible migrationId filename _ reason =>
    units "Migration " ++ migrationId ++ units " (" ++ filename ++
      units ") cannot be rolled back automatically: " ++ reason ++
      units (" Recover with a forward migration, or restore from a backup. " ++
        "No statements were executed.")
  | execution migrationId filename statementIndex cause =>
    units "Migration " ++ migrationId ++ units " (" ++ filename ++ units ") failed at" ++
      (statementIndex.map fun index => units " statement " ++ number index).getD [] ++
      units ": " ++ cause ++ units ". The transaction was rolled back."
  | database message => message
  | typeError => units "Cannot read properties of undefined"

end MigrationError

structure MigrationFile where
  id : Units
  filename : Units
  checksum : Units
  statements : List Units
  deriving DecidableEq, Repr

/-- The directory as the runtime reads it, and the two functions that read a script. -/
structure MigrationsDirectory where
  path : Units
  /-- `readdirSync(directory)` -/
  entries : List Units
  /-- `readFileSync(join(directory, filename), 'utf-8')` -/
  readFile : Units → Except MigrationError Units
  splitSqlStatements : Units → Except MigrationError (List Units)
  computeMigrationChecksum : Units → Units

/-- `left <= right`: strings are compared by code unit. -/
abbrev NotAfter (left right : Units) : Prop := left.map UInt16.toNat ≤ right.map UInt16.toNat

/-- `left < right` -/
abbrev Before (left right : Units) : Prop := left.map UInt16.toNat < right.map UInt16.toNat

def isLowerAlphanumeric (u : UInt16) : Bool := isDigit u || (97 ≤ u && u ≤ 122)

def UNDERSCORE : UInt16 := 95

/-- The digits of an id that matches `^(\d{4})_([a-z0-9]+(?:_[a-z0-9]+)*)$`. -/
def MIGRATION_ID_PATTERN : Units → Option Units
  | a :: b :: c :: d :: u :: name =>
    if [a, b, c, d].all isDigit && u == UNDERSCORE &&
        (name.splitOn UNDERSCORE).all fun word => !word.isEmpty && word.all isLowerAlphanumeric
    then some [a, b, c, d] else none
  | _ => none

/-- `Number.parseInt(digits, 10)` -/
def parseDigits (digits : Units) : Nat := digits.foldl (fun n u => 10 * n + (u.toNat - 48)) 0

structure ParsedMigrationId where
  id : Units
  sequence : Nat

def SQL_SUFFIX : Units := units ".sql"

def parseMigrationId (filename : Units) : Except MigrationError ParsedMigrationId :=
  if SQL_SUFFIX <:+ filename then
    let id := filename.take (filename.length - SQL_SUFFIX.length)
    match MIGRATION_ID_PATTERN id with
    | none => throw (.structureError (units "Migration file " ++ filename ++
        units " does not follow the required NNNN_snake_case_name.sql convention") none)
    | some digits => return ⟨id, parseDigits digits⟩
  else
    throw (.structureError (units "Migration file " ++ filename ++ units " must end with .sql") none)

def readMigrationFile (directory : MigrationsDirectory) (filename : Units) :
    Except MigrationError MigrationFile := do
  let parsed ← parseMigrationId filename
  let content ← directory.readFile filename
  let statements ← directory.splitSqlStatements content
  if statements.isEmpty then
    throw (.structureError (units "Migration " ++ parsed.id ++ units " (" ++ filename ++
      units ") contains no executable SQL statement") (some parsed.id))
  else
    return ⟨parsed.id, filename, directory.computeMigrationChecksum content, statements⟩

/-- What the loop over the file names has gathered. -/
structure Discovered where
  files : List MigrationFile := []
  /-- The file name of each id. -/
  seenIds : List (Units × Units) := []
  /-- `previousId` and `previousSequence` -/
  previous : Option (Units × Nat) := none

def padStart (width : Nat) (text : Units) : Units :=
  List.replicate (width - text.length) 48 ++ text

def checkSequence (seen : Discovered) (file : MigrationFile) (sequence : Nat) :
    Except MigrationError Unit :=
  match seen.previous with
  | none => return ()
  | some (previousId, previousSequence) =>
    if sequence = previousSequence then
      throw (.structureError (units "Two migrations claim sequence " ++
        padStart 4 (number sequence) ++ units ": " ++ (seen.seenIds.lookup previousId).getD [] ++
        units " and " ++ file.filename ++ units ". Each migration must get its own number.")
        (some file.id))
    else if sequence < previousSequence then
      throw (.structureError (units "Migration " ++ file.filename ++ units (" is not ordered after " ++
        "the previous migration. Files must sort by their NNNN_ prefix.")) (some file.id))
    else return ()

def addMigrationFile (directory : MigrationsDirectory) (seen : Discovered) (filename : Units) :
    Except MigrationError Discovered := do
  let file ← readMigrationFile directory filename
  match seen.seenIds.lookup file.id with
  | some duplicate =>
    throw (.structureError (units "Duplicate migration id " ++ file.id ++
      units " is claimed by both " ++ duplicate ++ units " and " ++ filename ++
      units ". Migration ids must be unique.") (some file.id))
  | none =>
    let parsed ← parseMigrationId filename
    checkSequence seen file parsed.sequence
    return ⟨seen.files ++ [file], (file.id, filename) :: seen.seenIds,
      some (file.id, parsed.sequence)⟩

def discoverMigrationFiles (directory : MigrationsDirectory) :
    Except MigrationError (List MigrationFile) := do
  let filenames := (directory.entries.filter (SQL_SUFFIX <:+ ·)).insertionSort NotAfter
  let seen ← filenames.foldlM (addMigrationFile directory) {}
  if seen.files.isEmpty then
    throw (.structureError (units "No .sql migrations found in " ++ directory.path) none)
  else return seen.files

/-- The sequence number of an id. -/
def sequence? (id : Units) : Option Nat := (MIGRATION_ID_PATTERN id).map parseDigits

theorem parseMigrationId_eq_ok {filename : Units} {parsed : ParsedMigrationId}
    (h : parseMigrationId filename = .ok parsed) : sequence? parsed.id = some parsed.sequence := by
  unfold parseMigrationId at h
  split at h
  · simp only at h
    split at h
    · cases h
    · rename_i digits matched
      obtain rfl := Except.ok.inj h
      simp [sequence?, matched]
  · cases h

theorem readMigrationFile_eq_ok {directory : MigrationsDirectory} {filename : Units}
    {file : MigrationFile} (h : readMigrationFile directory filename = .ok file) :
    ∃ parsed, parseMigrationId filename = .ok parsed ∧ file.id = parsed.id ∧
      file.statements ≠ [] := by
  unfold readMigrationFile at h
  cases parsed : parseMigrationId filename with
  | error error =>
    rw [parsed] at h
    cases h
  | ok id =>
    cases content : directory.readFile filename with
    | error error =>
      simp only [parsed, content, bind, Except.bind] at h
      cases h
    | ok content' =>
      cases statements : directory.splitSqlStatements content' with
      | error error =>
        simp only [parsed, content, statements, bind, Except.bind] at h
        cases h
      | ok statements' =>
        simp only [parsed, content, statements, bind, Except.bind] at h
        split at h
        · cases h
        · rename_i some'
          obtain rfl := Except.ok.inj h
          exact ⟨id, rfl, rfl, by simpa using some'⟩

/-- Four digits, and what they are worth. -/
theorem MIGRATION_ID_PATTERN_eq_some {id digits : Units} (h : MIGRATION_ID_PATTERN id = some digits) :
    ∃ a b c d rest, id = a :: b :: c :: d :: rest ∧ digits = [a, b, c, d] ∧
      ∀ u ∈ [a, b, c, d], 48 ≤ u.toNat ∧ u.toNat ≤ 57 := by
  unfold MIGRATION_ID_PATTERN at h
  split at h
  · rename_i a b c d u name
    split at h
    · rename_i passes
      obtain rfl := Option.some.inj h
      refine ⟨a, b, c, d, u :: name, rfl, rfl, fun v member => ?_⟩
      simp only [Bool.and_eq_true, List.all_eq_true] at passes
      have digit := passes.1.1 v member
      simp only [isDigit, Bool.and_eq_true, decide_eq_true_eq, UInt16.le_iff_toNat_le] at digit
      exact digit
    · cases h
  · cases h

/-- Ids whose sequence numbers ascend do so too. -/
theorem before_of_sequence_lt {left right : Units} {m n : Nat} (hm : sequence? left = some m)
    (hn : sequence? right = some n) (ascend : m < n) : Before left right := by
  obtain ⟨digits, matched, rfl⟩ := Option.map_eq_some_iff.mp hm
  obtain ⟨digits', matched', rfl⟩ := Option.map_eq_some_iff.mp hn
  obtain ⟨a, b, c, d, rest, rfl, rfl, bounds⟩ := MIGRATION_ID_PATTERN_eq_some matched
  obtain ⟨a', b', c', d', rest', rfl, rfl, bounds'⟩ := MIGRATION_ID_PATTERN_eq_some matched'
  simp only [List.mem_cons, List.not_mem_nil, or_false, forall_eq_or_imp, forall_eq] at bounds bounds'
  simp only [parseDigits, List.foldl_cons, List.foldl_nil] at ascend
  simp only [Before, List.map_cons, List.cons_lt_cons_iff]
  omega

/-- Files that were discovered so far: their sequence numbers ascend, and none is above
the one seen last. -/
structure Ascending (seen : Discovered) : Prop where
  numbered : ∀ file ∈ seen.files, ∃ n, sequence? file.id = some n ∧
    ∃ previous ∈ seen.previous, n ≤ previous.2
  ordered : seen.files.Pairwise fun file later => Before file.id later.id

theorem Ascending.empty : Ascending {} := ⟨nofun, List.Pairwise.nil⟩

theorem checkSequence_eq_ok {seen : Discovered} {file : MigrationFile} {sequence : Nat}
    (h : checkSequence seen file sequence = .ok ()) :
    ∀ previous ∈ seen.previous, previous.2 < sequence := by
  rintro ⟨previousId, previousSequence⟩ (member : seen.previous = some _)
  simp only [checkSequence, member] at h
  split at h
  · cases h
  · split at h
    · cases h
    · simp only
      omega

theorem Ascending.add {directory : MigrationsDirectory} {seen after : Discovered}
    {filename : Units} (ascending : Ascending seen)
    (h : addMigrationFile directory seen filename = .ok after) : Ascending after := by
  unfold addMigrationFile at h
  cases read : readMigrationFile directory filename with
  | error error =>
    rw [read] at h
    cases h
  | ok file =>
    obtain ⟨parsed, parses, named, -⟩ := readMigrationFile_eq_ok read
    have own : sequence? file.id = some parsed.sequence := by
      rw [named, parseMigrationId_eq_ok parses]
    cases duplicate : seen.seenIds.lookup file.id with
    | some other =>
      simp only [read, duplicate, bind, Except.bind] at h
      cases h
    | none =>
      cases checked : checkSequence seen file parsed.sequence with
      | error error =>
        simp only [read, duplicate, parses, checked, bind, Except.bind] at h
        cases h
      | ok u =>
        simp only [read, duplicate, parses, checked, bind, Except.bind] at h
        obtain rfl := Except.ok.inj h
        have above := checkSequence_eq_ok checked
        constructor
        · intro other member
          rcases List.mem_append.mp member with earlier | last
          · obtain ⟨n, numbered, previous, isPrevious, least⟩ := ascending.numbered other earlier
            have := above previous isPrevious
            exact ⟨n, numbered, _, rfl, by simp only; omega⟩
          · rw [List.mem_singleton.mp last]
            exact ⟨_, own, _, rfl, Nat.le_refl _⟩
        · refine List.pairwise_append.mpr ⟨ascending.ordered, List.pairwise_singleton _ _, ?_⟩
          intro other earlier last member
          rw [List.mem_singleton.mp member]
          obtain ⟨n, numbered, previous, isPrevious, least⟩ := ascending.numbered other earlier
          exact before_of_sequence_lt numbered own
            (Nat.lt_of_le_of_lt least (above previous isPrevious))

theorem Ascending.addAll {directory : MigrationsDirectory} {filenames : List Units}
    {seen after : Discovered} (ascending : Ascending seen)
    (h : filenames.foldlM (addMigrationFile directory) seen = .ok after) : Ascending after := by
  induction filenames generalizing seen with
  | nil =>
    obtain rfl := Except.ok.inj h
    exact ascending
  | cons filename rest ih =>
    rw [List.foldlM_cons] at h
    cases added : addMigrationFile directory seen filename with
    | error error =>
      rw [added] at h
      cases h
    | ok next =>
      rw [added] at h
      exact ih (ascending.add added) h

/-- The ids of discovered files ascend. -/
theorem discoverMigrationFiles_ascending {directory : MigrationsDirectory}
    {files : List MigrationFile} (h : discoverMigrationFiles directory = .ok files) :
    files.Pairwise fun file later => Before file.id later.id := by
  unfold discoverMigrationFiles at h
  simp only at h
  cases read : ((directory.entries.filter (SQL_SUFFIX <:+ ·)).insertionSort NotAfter).foldlM
      (addMigrationFile directory) {} with
  | error error =>
    rw [read] at h
    cases h
  | ok seen =>
    rw [read] at h
    change (if seen.files.isEmpty then _ else _) = _ at h
    split at h
    · cases h
    · obtain rfl := Except.ok.inj h
      exact (Ascending.empty.addAll read).ordered

end Migrations
