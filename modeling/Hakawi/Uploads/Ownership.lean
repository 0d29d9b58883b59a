import Hakawi.Effects.Trace
import Hakawi.Uploads.Service

/-!
# Whose uploads are deleted

A key that is issued has a slash in it, and no filename that may be confirmed or deleted has one.
The rows of a filename are deleted together: they are one account's as long as no filename is
recorded for two.
-/

namespace Uploads
open Common Store Effects

inductive Request where
  | image (body : GenerateUploadUrlDto)
  | pdf (body : GenerateUploadUrlDto)
  | confirm (body : ConfirmUploadDto)
  | delete (filename : String)
  deriving DecidableEq

/-- A request of an account, and what the environment decides at each call. -/
structure Asked where
  caller : Caller
  request : Request
  choices : Nat → Choice

/-- The world, and which key was issued to which account. -/
structure History where
  world : World
  issued : List (String × String)

section Steps
variable (config : Config)

/-- The key is issued to who asks for it. -/
def History.issue (history : History) (caller : Caller)
    (ended : Except Exception UploadResponse × World) : History where
  world := ended.2
  issued := match ended.1 with
    | .ok response => history.issued ++ [(caller.sub, response.filename)]
    | .error _ => history.issued

def step (history : History) (asked : Asked) : History :=
  match asked.request with
  | .image body => history.issue asked.caller
      ((UploadController.generateImageUploadUrl config body).run.eval exec asked.choices
        history.world)
  | .pdf body => history.issue asked.caller
      ((UploadController.generatePdfUploadUrl config body).run.eval exec asked.choices
        history.world)
  | .confirm body => { history with
      world := ((UploadController.confirmUpload config asked.caller body).run.eval exec
        asked.choices history.world).2 }
  | .delete filename => { history with
      world := ((UploadController.deleteFile asked.caller filename).run.eval exec asked.choices
        history.world).2 }

end Steps

/-- Objects are deleted by whom they were issued to or by a super admin, and rows are deleted of
one account, the caller's own unless the caller is a super admin. -/
structure Careful (before : History) (asked : Asked) (after : History) : Prop where
  objects : ∃ keys, after.world.deleted = before.world.deleted ++ keys ∧
    ∀ key ∈ keys, ∀ owner, (owner, key) ∈ before.issued →
      owner = asked.caller.sub ∨ asked.caller.isSuperAdmin = true
  rows : ∀ row ∈ before.world.uploads.rows, row ∉ after.world.uploads.rows →
    (row.uploadedById = some asked.caller.sub ∨ asked.caller.isSuperAdmin = true) ∧
    ∀ other ∈ before.world.uploads.rows, other ∉ after.world.uploads.rows →
      other.uploadedById = row.uploadedById

/-- A filename is recorded for one account. -/
def Unshared (world : World) : Prop :=
  ∀ row ∈ world.uploads.rows, ∀ other ∈ world.uploads.rows,
    row.filename = other.filename → row.uploadedById = other.uploadedById

instance (world : World) : Decidable (Unshared world) := by
  unfold Unshared
  infer_instance

/-- No filename is confirmed that is recorded for another account. -/
def Fresh (history : History) (asked : Asked) : Prop :=
  match asked.request with
  | .confirm body => ∀ row ∈ history.world.uploads.rows, row.filename = body.filename →
      row.uploadedById = some asked.caller.sub
  | _ => True

instance (history : History) (asked : Asked) : Decidable (Fresh history asked) := by
  unfold Fresh
  split <;> infer_instance

section Calls
variable {world : World}

/-- Any execution of the upload service. -/
abbrev anyway : Program.OpSpec Call Call.Answer World := Program.execSpec exec fun _ => True

theorem anyway_monotone : anyway.Monotone := Program.execSpec_monotone _ _

/-- What a request leaves of the uploads and the objects. -/
structure Leaves (before after : World) : Prop where
  uploads : after.uploads = before.uploads
  deleted : after.deleted = before.deleted

/-- A call does nothing but let the time pass, or it is carried out. -/
theorem exec_cases (choice : Choice) (world : World) (op : Call) :
    (exec choice world op).2 = world.later choice.elapsed ∨
      (exec choice world op).2 = ((world.later choice.elapsed).perform choice op).2 := by
  rw [exec]
  split
  · exact Or.inl rfl
  · exact Or.inr rfl
  · exact Or.inr rfl

/-- Calls that write nothing. -/
def Reads : Call → Prop
  | .now | .randomUUID | .getSignedUrl _ _ | .findUpload _ => True
  | _ => False

theorem exec_reads {op : Call} (reads : Reads op) (choice : Choice) (world : World) :
    Leaves world (exec choice world op).2 := by
  rcases exec_cases choice world op with same | same
  · rw [same]
    exact ⟨rfl, rfl⟩
  · rw [same]
    cases op with
    | now | randomUUID | getSignedUrl | findUpload => exact ⟨rfl, rfl⟩
    | insertUpload | deleteObject | deleteUploads => exact reads.elim

theorem Leaves.trans {x y z : World} (first : Leaves x y) (second : Leaves y z) : Leaves x z :=
  ⟨second.uploads.trans first.uploads, second.deleted.trans first.deleted⟩

theorem call_reads {op : Call} (reads : Reads op) : OnlyE Reads (call op) :=
  ⟨reads, fun _ => trivial⟩

variable (config : Config)

theorem generatePresignedUrl_reads (filename contentType folder : String) :
    OnlyE Reads (UploadService.generatePresignedUrl config filename contentType folder) := by
  rw [UploadService.generatePresignedUrl]
  split
  · exact onlyE_throw _
  · refine OnlyE.bind (call_reads trivial) fun now => ?_
    refine OnlyE.bind (call_reads trivial) fun uuid => ?_
    exact OnlyE.bind (call_reads trivial) fun url => onlyE_pure _

/-- A key has the slash after its folder. -/
theorem generatePresignedUrl_slash (filename contentType folder : String) :
    Returns (fun response => '/' ∈ response.filename.toList)
      (UploadService.generatePresignedUrl config filename contentType folder) := by
  rw [UploadService.generatePresignedUrl]
  split
  · exact returns_throw _
  · refine returns_bind fun now => returns_bind fun uuid => returns_bind fun url => ?_
    exact returns_pure (by simp [String.toList_append, toString])

theorem slash_unmatched {text : String} (slash : '/' ∈ text.toList) :
    UPLOAD_FILENAME_PATTERN text = false := by
  rw [UPLOAD_FILENAME_PATTERN, Bool.and_eq_false_iff]
  right
  rw [List.all_eq_false]
  exact ⟨'/', slash, by decide⟩

/-- What an account confirms is recorded for it. -/
def Confirms (caller : Caller) (filename : String) (before after : World) : Prop :=
  after.deleted = before.deleted ∧ (after.uploads = before.uploads ∨
    ∃ row : Upload, row.filename = filename ∧ row.uploadedById = some caller.sub ∧
      after.uploads.rows = before.uploads.rows ++ [row])

theorem insertUpload_confirms (choice : Choice) (world : World) (data : NewUpload)
    {caller : Caller} (owned : data.uploadedById = some caller.sub) :
    Confirms caller data.filename world (exec choice world (.insertUpload data)).2 := by
  rcases exec_cases choice world (.insertUpload data) with same | same
  · rw [same]
    exact ⟨rfl, Or.inl rfl⟩
  · rw [same, World.perform]
    split
    · exact ⟨rfl, Or.inl rfl⟩
    · rename_i uploads inserted
      rw [Keyed.insert?] at inserted
      split at inserted
      · cases inserted
      · cases inserted
        exact ⟨rfl, Or.inr ⟨_, rfl, owned, rfl⟩⟩

theorem confirmUpload_confirms (caller : Caller) (body : ConfirmUploadDto) (world : World) :
    wpE anyway (UploadController.confirmUpload config caller body)
      (fun _ => Confirms caller body.filename world) world := by
  have still : Confirms caller body.filename world world := ⟨rfl, Or.inl rfl⟩
  rw [UploadController.confirmUpload]
  split
  · exact still
  rw [UploadService.confirmUpload]
  split
  · exact still
  · intro choice _
    exact insertUpload_confirms choice world _ rfl

/-- Nothing is deleted, or what has a filename that an allowed caller has an upload of. -/
def Deletes (caller : Caller) (filename : String) (before after : World) : Prop :=
  Leaves before after ∨
    UPLOAD_FILENAME_PATTERN filename = true ∧
    (∃ row ∈ before.uploads.rows, row.filename = filename ∧
      (row.uploadedById = some caller.sub ∨ caller.isSuperAdmin = true)) ∧
    (after.deleted = before.deleted ∨ after.deleted = before.deleted ++ [filename]) ∧
    (after.uploads = before.uploads ∨
      after.uploads.rows = before.uploads.rows.filter (·.filename ≠ filename))

theorem findUpload_answers {choice : Choice} {world : World} {filename : String} {upload : Upload}
    (answered : (exec choice world (.findUpload filename)).1 = .ok (some upload)) :
    upload ∈ world.uploads.rows ∧ upload.filename = filename := by
  have found : (world.later choice.elapsed).findUpload filename choice.pick = some upload := by
    rw [exec] at answered
    split at answered
    · cases answered
    · cases answered
    · exact Except.ok.inj answered
  obtain ⟨member, named⟩ := List.mem_filter.mp (mem_of_limitOne found)
  exact ⟨member, by simpa using named⟩

theorem exec_deleteObject (choice : Choice) (world : World) (key : String) :
    (exec choice world (.deleteObject key)).2.uploads = world.uploads ∧
    ((exec choice world (.deleteObject key)).2.deleted = world.deleted ∨
      (exec choice world (.deleteObject key)).2.deleted = world.deleted ++ [key]) := by
  rcases exec_cases choice world (.deleteObject key) with same | same
  · rw [same]
    exact ⟨rfl, Or.inl rfl⟩
  · rw [same]
    exact ⟨rfl, Or.inr rfl⟩

theorem exec_deleteUploads (choice : Choice) (world : World) (filename : String) :
    (exec choice world (.deleteUploads filename)).2.deleted = world.deleted ∧
    ((exec choice world (.deleteUploads filename)).2.uploads = world.uploads ∨
      (exec choice world (.deleteUploads filename)).2.uploads.rows =
        world.uploads.rows.filter (·.filename ≠ filename)) := by
  rcases exec_cases choice world (.deleteUploads filename) with same | same
  · rw [same]
    exact ⟨rfl, Or.inl rfl⟩
  · rw [same]
    exact ⟨rfl, Or.inr rfl⟩

theorem deleteFile_deletes (caller : Caller) (filename : String) (world : World) :
    wpE anyway (UploadController.deleteFile caller filename)
      (fun _ => Deletes caller filename world) world := by
  rw [UploadController.deleteFile]
  split
  · exact Or.inl ⟨rfl, rfl⟩
  rename_i matched
  have matched : UPLOAD_FILENAME_PATTERN filename = true := by simpa using matched
  rw [UploadService.deleteFile, wpE_bind]
  intro choice _
  have reads : Reads (.findUpload filename) := trivial
  have looked := exec_reads reads choice world
  rw [Program.wp_done]
  cases answered : (exec choice world (.findUpload filename)).1 with
  | error e => exact Or.inl looked
  | ok found =>
    cases found with
    | none => exact Or.inl looked
    | some upload =>
      obtain ⟨member, named⟩ := findUpload_answers answered
      change wpE anyway (if upload.uploadedById ≠ some caller.sub ∧ caller.isSuperAdmin = false
        then _ else _) _ _
      rw [wpE_ite]
      split
      · exact Or.inl looked
      · rename_i permitted
        have allowed : upload.uploadedById = some caller.sub ∨ caller.isSuperAdmin = true := by
          simpa [imp_iff_not_or, or_comm] using permitted
        generalize (exec choice world (.findUpload filename)).2 = w at looked ⊢
        rw [wpE_bind]
        intro choice' _
        obtain ⟨uploads, objects⟩ := exec_deleteObject choice' w filename
        rw [Program.wp_done]
        generalize (exec choice' w (.deleteObject filename)).2 = w' at uploads objects ⊢
        rw [looked.deleted] at objects
        have same : w'.uploads = world.uploads := uploads.trans looked.uploads
        cases (exec choice' w (.deleteObject filename)).1 with
        | error e =>
          exact Or.inr ⟨matched, ⟨upload, member, named, allowed⟩, objects, Or.inl same⟩
        | ok u =>
          intro choice'' _
          obtain ⟨deleted, rows⟩ := exec_deleteUploads choice'' w' filename
          rw [Program.wp_done]
          generalize (exec choice'' w' (.deleteUploads filename)).2 = w'' at deleted rows ⊢
          rw [same] at rows
          rw [← deleted] at objects
          exact Or.inr ⟨matched, ⟨upload, member, named, allowed⟩, objects, rows⟩

end Calls

section Runs
variable {config : Config} {history : History}

/-- Every issued key has a slash, and no filename is shared. -/
structure Sound (history : History) : Prop where
  slashed : ∀ issue ∈ history.issued, '/' ∈ issue.2.toList
  unshared : Unshared history.world

theorem Leaves.careful {asked : Asked} {after : History}
    (leaves : Leaves history.world after.world) : Careful history asked after := by
  refine ⟨⟨[], by rw [leaves.deleted, List.append_nil], by simp⟩, fun row present gone => ?_⟩
  rw [leaves.uploads] at gone
  exact absurd present gone

theorem Leaves.unshared {before after : World} (leaves : Leaves before after)
    (unshared : Unshared before) : Unshared after := by
  rw [Unshared, leaves.uploads]
  exact unshared

theorem Confirms.careful {asked : Asked} {after : History} {filename : String}
    (confirms : Confirms asked.caller filename history.world after.world) :
    Careful history asked after := by
  refine ⟨⟨[], by rw [confirms.1, List.append_nil], by simp⟩, fun row present gone => ?_⟩
  rcases confirms.2 with same | ⟨added, -, -, rows⟩
  · rw [same] at gone
    exact absurd present gone
  · rw [rows] at gone
    exact absurd (List.mem_append_left _ present) gone

theorem Confirms.unshared {caller : Caller} {filename : String} {before after : World}
    (confirms : Confirms caller filename before after) (unshared : Unshared before)
    (fresh : ∀ row ∈ before.uploads.rows, row.filename = filename →
      row.uploadedById = some caller.sub) : Unshared after := by
  rcases confirms.2 with same | ⟨added, named, owned, rows⟩
  · rw [Unshared, same]
    exact unshared
  · intro row present other present' same
    rw [rows] at present present'
    rcases List.mem_append.mp present with old | new <;>
      rcases List.mem_append.mp present' with old' | new'
    · exact unshared row old other old' same
    · rw [List.mem_singleton.mp new'] at same ⊢
      rw [owned]
      exact fresh row old (same.trans named)
    · rw [List.mem_singleton.mp new] at same ⊢
      rw [owned]
      exact (fresh other old' (same.symm.trans named)).symm
    · rw [List.mem_singleton.mp new, List.mem_singleton.mp new']

theorem Deletes.careful {asked : Asked} {after : History} {filename : String}
    (deletes : Deletes asked.caller filename history.world after.world) (sound : Sound history) :
    Careful history asked after := by
  rcases deletes with leaves | ⟨matched, ⟨found, member, named, allowed⟩, objects, rows⟩
  · exact leaves.careful
  have unissued (owner : String) (issued : (owner, filename) ∈ history.issued) : False := by
    have slash := slash_unmatched (sound.slashed _ issued)
    rw [matched] at slash
    cases slash
  refine ⟨?_, fun row present gone => ?_⟩
  · rcases objects with same | deleted
    · exact ⟨[], by rw [same, List.append_nil], by simp⟩
    · refine ⟨[filename], deleted, fun key member owner issued => ?_⟩
      rw [List.mem_singleton.mp member] at issued
      exact (unissued owner issued).elim
  · rcases rows with same | filtered
    · rw [same] at gone
      exact absurd present gone
    have removed (row : Upload) (present : row ∈ history.world.uploads.rows)
        (gone : row ∉ after.world.uploads.rows) : row.filename = filename := by
      by_contra other
      refine gone ?_
      rw [filtered]
      exact List.mem_filter.mpr ⟨present, by simpa using other⟩
    have owner (row : Upload) (present : row ∈ history.world.uploads.rows)
        (gone : row ∉ after.world.uploads.rows) : row.uploadedById = found.uploadedById :=
      sound.unshared row present found member ((removed row present gone).trans named.symm)
    refine ⟨?_, fun other present' gone' => ?_⟩
    · rw [owner row present gone]
      exact allowed
    · exact (owner other present' gone').trans (owner row present gone).symm

theorem Deletes.unshared {caller : Caller} {filename : String} {before after : World}
    (deletes : Deletes caller filename before after) (unshared : Unshared before) :
    Unshared after := by
  rcases deletes with leaves | ⟨-, -, -, same | filtered⟩
  · exact leaves.unshared unshared
  · rw [Unshared, same]
    exact unshared
  · intro row present other present' same
    rw [filtered] at present present'
    exact unshared row (List.mem_filter.mp present).1 other (List.mem_filter.mp present').1 same

/-- Asking for a key writes nothing, and the key that is issued has a slash. -/
theorem issue_sound {p : Method UploadResponse} (caller : Caller) (choices : Nat → Choice)
    (reads : OnlyE Reads p) (slash : Returns (fun response => '/' ∈ response.filename.toList) p)
    (slashed : ∀ issue ∈ history.issued, '/' ∈ issue.2.toList) :
    Leaves history.world (history.issue caller (p.run.eval exec choices history.world)).world ∧
    ∀ issue ∈ (history.issue caller (p.run.eval exec choices history.world)).issued,
      '/' ∈ issue.2.toList := by
  constructor
  · have keeps (c : Choice) (w : World) (op : Call) (allowed : Reads op)
        (leaves : Leaves history.world w) : Leaves history.world (exec c w op).2 :=
      leaves.trans (exec_reads allowed c w)
    exact reads.only.eval keeps choices ⟨rfl, rfl⟩
  · rw [History.issue]
    cases ended : (p.run.eval exec choices history.world).1 with
    | error e => exact slashed
    | ok response =>
      intro issue member
      rcases List.mem_append.mp member with old | new
      · exact slashed issue old
      · rw [List.mem_singleton.mp new]
        exact slash.eval ended

theorem image_reads (config : Config) (body : GenerateUploadUrlDto) :
    OnlyE Reads (UploadController.generateImageUploadUrl config body) := by
  rw [UploadController.generateImageUploadUrl]
  cases UploadController.resolveFilename body.filename "image.png" with
  | error e => exact onlyE_throw e
  | ok filename => exact generatePresignedUrl_reads config filename _ _

theorem pdf_reads (config : Config) (body : GenerateUploadUrlDto) :
    OnlyE Reads (UploadController.generatePdfUploadUrl config body) := by
  rw [UploadController.generatePdfUploadUrl]
  cases UploadController.resolveFilename body.filename "document.pdf" with
  | error e => exact onlyE_throw e
  | ok filename => exact generatePresignedUrl_reads config filename _ _

theorem image_slash (config : Config) (body : GenerateUploadUrlDto) :
    Returns (fun response => '/' ∈ response.filename.toList)
      (UploadController.generateImageUploadUrl config body) :=
  returns_bind fun filename => generatePresignedUrl_slash config filename _ _

theorem pdf_slash (config : Config) (body : GenerateUploadUrlDto) :
    Returns (fun response => '/' ∈ response.filename.toList)
      (UploadController.generatePdfUploadUrl config body) :=
  returns_bind fun filename => generatePresignedUrl_slash config filename _ _

theorem step_careful (config : Config) (sound : Sound history) (asked : Asked)
    (fresh : Fresh history asked) :
    Careful history asked (step config history asked) ∧ Sound (step config history asked) := by
  obtain ⟨caller, request, choices⟩ := asked
  cases request with
  | image body =>
    obtain ⟨leaves, slashed⟩ := issue_sound caller choices (image_reads config body)
      (image_slash config body) sound.slashed
    exact ⟨leaves.careful, slashed, leaves.unshared sound.unshared⟩
  | pdf body =>
    obtain ⟨leaves, slashed⟩ := issue_sound caller choices (pdf_reads config body)
      (pdf_slash config body) sound.slashed
    exact ⟨leaves.careful, slashed, leaves.unshared sound.unshared⟩
  | confirm body =>
    have confirms : Confirms caller body.filename history.world
        (step config history ⟨caller, .confirm body, choices⟩).world :=
      Program.eval_of_wp (confirmUpload_confirms config caller body history.world)
        fun _ => trivial
    exact ⟨confirms.careful, sound.slashed, confirms.unshared sound.unshared fresh⟩
  | delete filename =>
    have deletes : Deletes caller filename history.world
        (step config history ⟨caller, .delete filename, choices⟩).world :=
      Program.eval_of_wp (deleteFile_deletes caller filename history.world) fun _ => trivial
    exact ⟨deletes.careful sound, sound.slashed, deletes.unshared sound.unshared⟩

/-- In a run in which no filename is confirmed that is recorded for another account, every
request is careful. -/
theorem uploads_deleted_by_owner (config : Config) {world : World} (unshared : Unshared world)
    (requests : List Asked) (fresh : Trace.Meets (step config) Fresh ⟨world, []⟩ requests) (n : Nat)
    (asked : Asked) (next : requests[n]? = some asked) :
    Careful (Trace.run (step config) ⟨world, []⟩ (requests.take n)) asked
      (Trace.run (step config) ⟨world, []⟩ (requests.take (n + 1))) := by
  have sound : Sound ⟨world, []⟩ := ⟨by simp, unshared⟩
  generalize (⟨world, []⟩ : History) = history at fresh sound ⊢
  induction requests generalizing history n with
  | nil => cases next
  | cons first rest ih =>
    obtain ⟨careful, sound'⟩ := step_careful config sound first fresh.1
    cases n with
    | zero =>
      cases next
      exact careful
    | succ n => exact ih n next _ fresh.2 sound'

end Runs

section Examples

def nothing : World := ⟨0, ⟨[], List.nodup_nil⟩, []⟩

def plain : Config := { toLowerCase := fun text => String.ofList (text.toList.map Char.toLower) }

def photo : ConfirmUploadDto :=
  { filename := "photo.png", originalName := "photo.png", mimetype := "image/png", size := 1 }

def asks (sub id : String) (request : Request) : Asked :=
  { caller := { sub }, request, choices := fun _ => { random := id } }

theorem uploads_deleted_by_owner_once :
    let requests := [asks "first" "1" (.image {}), asks "first" "2" (.confirm photo),
      asks "second" "3" (.delete "photo.png"), asks "first" "4" (.delete "photo.png")]
    Careful (Trace.run (step plain) ⟨nothing, []⟩ (requests.take 3))
      (asks "first" "4" (.delete "photo.png"))
      (Trace.run (step plain) ⟨nothing, []⟩ (requests.take 4)) :=
  uploads_deleted_by_owner plain (by decide) _ (by decide +kernel) 3 _ rfl

/-- Two accounts confirm one filename, and the first deletes the upload of the second. -/
theorem delete_removes_another :
    let before := Trace.run (step plain) ⟨nothing, []⟩
      [asks "first" "1" (.confirm photo), asks "second" "2" (.confirm photo)]
    let after := step plain before (asks "first" "3" (.delete "photo.png"))
    before.world.uploads.rows.map (·.uploadedById) = [some "first", some "second"] ∧
    after.world.uploads.rows = [] ∧
    ¬ Careful before (asks "first" "3" (.delete "photo.png")) after := by
  intro before after
  have rows : before.world.uploads.rows.map (·.uploadedById) = [some "first", some "second"] ∧
      after.world.uploads.rows = [] := by
    decide
  refine ⟨rows.1, rows.2, fun careful => ?_⟩
  have second : some "second" ∈ before.world.uploads.rows.map (·.uploadedById) := by
    rw [rows.1]
    decide
  obtain ⟨row, member, owner⟩ := List.mem_map.mp second
  have allowed := (careful.rows row member (by rw [rows.2]; simp)).1
  rw [owner] at allowed
  revert allowed
  decide

end Examples
end Uploads
