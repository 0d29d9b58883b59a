import Hakawi.Auth.Tokens
import Hakawi.Common.ValkeyCalls
import Hakawi.Social.Service
import Hakawi.Store.Keyed

/-!
# The upload service

A client is given a key and a signed address, puts its object there, and tells the service that
it has. What it tells is the only record of whose an object is.
-/

namespace Uploads
open Html Common Store Effects
open Social (Optional)

structure NewUpload where
  filename : String
  originalName : String
  mimetype : String
  size : Int
  url : String
  cdnUrl : Option String
  uploadedById : Option String
  storyId : Option String
  deriving DecidableEq

structure Upload extends NewUpload where
  id : String
  deriving DecidableEq

structure UploadResponse where
  filename : String
  originalName : String
  mimetype : String
  size : Int
  url : String
  cdnUrl : String
  deriving DecidableEq

structure GenerateUploadUrlDto where
  filename : Optional String := .undefined
  contentType : Optional String := .undefined
  deriving DecidableEq

structure ConfirmUploadDto where
  filename : String
  originalName : String
  mimetype : String
  size : Int
  storyId : Optional String := .undefined
  deriving DecidableEq

/-- The settings of a deployment, and the lower case of a text. -/
structure Config where
  cdnUrl : String := ""
  /-- `none` is `NaN`. -/
  maxFileSize : Option Int := some 10485760
  allowedImageTypes : List String := ["image/jpeg", "image/png", "image/webp", "image/gif"]
  allowedPdfTypes : List String := ["application/pdf"]
  toLowerCase : String → String

inductive Call where
  /-- `Date.now()` -/
  | now
  /-- `crypto.randomUUID()` -/
  | randomUUID
  /-- `getSignedUrl`, behind its circuit breaker -/
  | getSignedUrl (key contentType : String)
  | insertUpload (data : NewUpload)
  /-- `SELECT ... WHERE filename = $1 LIMIT 1` -/
  | findUpload (filename : String)
  /-- `DeleteObjectCommand`, behind its circuit breaker -/
  | deleteObject (key : String)
  /-- `DELETE ... WHERE filename = $1` -/
  | deleteUploads (filename : String)

namespace Call

abbrev Value : Call → Type
  | now => Int
  | randomUUID | getSignedUrl _ _ => String
  | insertUpload _ => Upload
  | findUpload _ => Option Upload
  | deleteObject _ | deleteUploads _ => Unit

abbrev Answer (call : Call) : Type := Except Exception call.Value

def mayFail : Call → Bool
  | now | randomUUID => false
  | _ => true

end Call

structure World where
  /-- In milliseconds. -/
  clock : Int
  uploads : Keyed Upload Upload.id
  /-- The keys whose objects were deleted, the last one last. -/
  deleted : List String

/-- What the environment decides at a call. -/
structure Choice where
  elapsed : Nat := 1
  outcome : Outcome := .performed
  /-- An id or a signed address. -/
  random : String := ""
  /-- Which of the rows that match comes first. -/
  pick : Nat := 0

namespace World

def later (world : World) (elapsed : Nat) : World := { world with clock := world.clock + elapsed }

def findUpload (world : World) (filename : String) (pick : Nat) : Option Upload :=
  limitOne (world.uploads.rows.filter (·.filename = filename)) pick

def perform (choice : Choice) (world : World) : (call : Call) → call.Answer × World
  | .now => (.ok world.clock, world)
  | .randomUUID | .getSignedUrl _ _ => (.ok choice.random, world)
  | .insertUpload data =>
    let row : Upload := { data with id := choice.random }
    match world.uploads.insert? row with
    | none => (.error (.drizzle (.uniqueViolation "uploads_pkey")), world)
    | some uploads => (.ok row, { world with uploads })
  | .findUpload filename => (.ok (world.findUpload filename choice.pick), world)
  | .deleteObject key => (.ok (), { world with deleted := world.deleted ++ [key] })
  | .deleteUploads filename =>
    (.ok (), { world with uploads := world.uploads.filter (·.filename ≠ filename) })

end World

def connectionFailed : Exception := .drizzle (.failed none)

/-- Some time passes before the call, and a call that fails may have been performed. -/
def exec (choice : Choice) (world : World) (call : Call) : call.Answer × World :=
  let world := world.later choice.elapsed
  match call.mayFail, choice.outcome with
  | true, .refused => (.error connectionFailed, world)
  | true, .lost => (.error connectionFailed, (world.perform choice call).2)
  | _, _ => world.perform choice call

abbrev Method (α : Type) : Type := Fallible Call Call.Answer Exception α

def call (op : Call) : Method op.Value := ExceptT.mk (.call op .done)

/-- `[a-zA-Z0-9._-]` -/
def isFilenameChar (c : Char) : Bool := c.isAlphanum || c = '.' || c = '_' || c = '-'

/-- `/^[A-Za-z0-9._-]+$/` -/
def UPLOAD_FILENAME_PATTERN (text : String) : Bool := text ≠ "" && text.toList.all isFilenameChar

namespace UploadService
variable (config : Config)

def generatePresignedUrl (filename contentType folder : String) : Method UploadResponse := do
  let normalizedContentType := Auth.trim (config.toLowerCase contentType)
  if ¬ (normalizedContentType ∈ config.allowedImageTypes ∨
      normalizedContentType ∈ config.allowedPdfTypes) then
    throw (.forbidden (units s!"File type {contentType} is not allowed"))
  else
    let now ← call .now
    let uuid ← call .randomUUID
    let cleaned := String.ofList (filename.toList.filter isFilenameChar)
    let uniqueFilename := s!"{folder}/{(now : Int)}-{(uuid : String)}-{cleaned}"
    let url ← call (.getSignedUrl uniqueFilename normalizedContentType)
    return {
      filename := uniqueFilename, originalName := filename, mimetype := normalizedContentType
      size := 0, url
      cdnUrl := if config.cdnUrl ≠ "" then s!"{config.cdnUrl}/{uniqueFilename}" else url }

def confirmUpload (filename originalName mimetype : String) (size : Int)
    (uploadedById storyId : Option String) : Method Upload := do
  if config.maxFileSize.any (size > ·) then
    throw (.forbidden (units
      s!"File size exceeds maximum of {config.maxFileSize.getD 0} bytes"))
  else
    let cdnUrl := if config.cdnUrl ≠ "" then some s!"{config.cdnUrl}/{filename}" else none
    call (.insertUpload
      { filename, originalName, mimetype, size, url := cdnUrl.getD filename, cdnUrl
        uploadedById, storyId })

/-- All rows of the filename are deleted, whoever uploaded. -/
def deleteFile (filename userId : String) (isSuperAdmin : Bool) : Method Unit := do
  match ← call (.findUpload filename) with
  | none => throw (.notFound (units "Upload not found"))
  | some upload =>
    if upload.uploadedById ≠ some userId ∧ isSuperAdmin = false then
      throw (.notFound (units "Upload not found"))
    else
      call (.deleteObject filename)
      call (.deleteUploads filename)

end UploadService

/-- The user of an authenticated request. -/
structure Caller where
  sub : String
  adminRole : Option String := none
  deriving DecidableEq

def Caller.isSuperAdmin (caller : Caller) : Bool := caller.adminRole = some "super_admin"

namespace UploadController
variable (config : Config)

def unsupported : Exception := .badRequest (units "Filename contains unsupported characters")

/-- `null` has no length. -/
def resolveFilename (requested : Optional String) (fallback : String) : Except Exception String :=
  match requested with
  | .undefined => .ok fallback
  | .null => .error .typeError
  | .value text =>
    if text = "" then .ok fallback
    else if UPLOAD_FILENAME_PATTERN text then .ok text else .error unsupported

/-- `body.contentType || fallback` -/
def resolveContentType (requested : Optional String) (fallback : String) : String :=
  (requested.orNull.filter (· ≠ "")).getD fallback

def generateImageUploadUrl (body : GenerateUploadUrlDto) : Method UploadResponse := do
  let filename ← liftM (resolveFilename body.filename "image.png")
  UploadService.generatePresignedUrl config filename
    (resolveContentType body.contentType "image/png") "images"

def generatePdfUploadUrl (body : GenerateUploadUrlDto) : Method UploadResponse := do
  let filename ← liftM (resolveFilename body.filename "document.pdf")
  UploadService.generatePresignedUrl config filename
    (resolveContentType body.contentType "application/pdf") "pdfs"

def confirmUpload (caller : Caller) (body : ConfirmUploadDto) : Method Upload := do
  if UPLOAD_FILENAME_PATTERN body.filename = false then throw unsupported
  else
    UploadService.confirmUpload config body.filename body.originalName body.mimetype body.size
      (some caller.sub) body.storyId.orNull

def deleteFile (caller : Caller) (filename : String) : Method Unit := do
  if UPLOAD_FILENAME_PATTERN filename = false then throw unsupported
  else UploadService.deleteFile filename caller.sub caller.isSuperAdmin

end UploadController
end Uploads
