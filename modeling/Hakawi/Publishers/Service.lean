import Hakawi.Admin.Repository
import Hakawi.Social.Service
import Hakawi.Store.Keyed

/-!
# The publishers service

A user applies to be a publisher, once; an officer approves or rejects. A publisher links writers.
What a review means for the account, the service only announces.
-/

namespace Publishers
open Html Common Store Effects
open Social (Optional)
open Admin (Uuids)

inductive ApplicationStatus where
  | pending
  | approved
  | rejected
  deriving DecidableEq

def ApplicationStatus.value : ApplicationStatus → String
  | pending => "pending"
  | approved => "approved"
  | rejected => "rejected"

structure NewPublisherApplication where
  userId : String
  companyName : String
  companyWebsite : Option String
  companyAddress : Option String
  taxId : Option String
  contactName : String
  contactEmail : String
  contactPhone : Option String
  description : String
  status : ApplicationStatus
  deriving DecidableEq

structure PublisherApplication extends NewPublisherApplication where
  id : String
  reviewedBy : Option String
  reviewedAt : Option Int
  rejectionReason : Option String
  createdAt : Int
  updatedAt : Int
  deriving DecidableEq

def PublisherApplication.owner (application : PublisherApplication) : String := application.userId

structure NewPublisherWriter where
  publisherId : String
  writerId : String
  commissionRate : Int
  status : String
  notes : Option String
  deriving DecidableEq

structure PublisherWriter extends NewPublisherWriter where
  id : String
  createdAt : Int
  updatedAt : Int
  deriving DecidableEq

def PublisherWriter.pair (link : PublisherWriter) : String × String :=
  (link.publisherId, link.writerId)

/-- A user has one application. -/
structure Applications extends Keyed PublisherApplication PublisherApplication.id where
  distinct : (rows.map PublisherApplication.owner).Nodup

namespace Applications

def empty : Applications := ⟨⟨[], List.nodup_nil⟩, List.nodup_nil⟩

def insert (t : Applications) (row : PublisherApplication) :
    Except DatabaseError Applications :=
  if taken : row.id ∈ t.rows.map PublisherApplication.id then
    .error (.uniqueViolation "publisher_applications_pkey")
  else if applied : row.owner ∈ t.rows.map PublisherApplication.owner then
    .error (.uniqueViolation "publisher_applications_user_id_unique")
  else .ok
    { rows := t.rows ++ [row]
      unique := nodup_append t.unique taken
      distinct := nodup_append t.distinct applied }

/-- A review of an application leaves whose it is. -/
def modify (t : Applications) (id : String) (f : PublisherApplication → PublisherApplication)
    (keeps : ∀ r, (f r).id = r.id) (keeps' : ∀ r, (f r).owner = r.owner) : Applications where
  toKeyed := t.toKeyed.modify id f keeps
  distinct := (map_rewrite (fun r : PublisherApplication => r.id = id) keeps').symm ▸ t.distinct

def findByUserId (t : Applications) (userId : String) : Option PublisherApplication :=
  t.rows.find? fun application => application.owner = userId

end Applications

/-- What a review writes. -/
structure ApplicationChanges where
  status : ApplicationStatus
  reviewedBy : String
  reviewedAt : Int
  rejectionReason : Option String := none

def PublisherApplication.review (application : PublisherApplication) (changes : ApplicationChanges)
    (now : Int) : PublisherApplication :=
  { application with
    status := changes.status, reviewedBy := some changes.reviewedBy
    reviewedAt := some changes.reviewedAt
    rejectionReason := changes.rejectionReason <|> application.rejectionReason
    updatedAt := now }

inductive WriterStatus where
  | active
  | suspended
  | terminated
  deriving DecidableEq

def WriterStatus.value : WriterStatus → String
  | active => "active"
  | suspended => "suspended"
  | terminated => "terminated"

structure CreatePublisherApplicationDto where
  companyName : String
  companyWebsite : Optional String := .undefined
  companyAddress : Optional String := .undefined
  taxId : Optional String := .undefined
  contactName : String
  contactEmail : String
  contactPhone : Optional String := .undefined
  description : String
  deriving DecidableEq

inductive Verdict where
  | approved
  | rejected
  deriving DecidableEq

def Verdict.status : Verdict → ApplicationStatus
  | approved => .approved
  | rejected => .rejected

structure ReviewPublisherApplicationDto where
  status : Verdict
  rejectionReason : Optional String := .undefined
  deriving DecidableEq

/-- A commission is an integer from 0 to 100. -/
structure CreatePublisherWriterDto where
  writerId : String
  commissionRate : Optional (Fin 101) := .undefined
  notes : Optional String := .undefined
  deriving DecidableEq

structure UpdatePublisherWriterDto where
  commissionRate : Optional (Fin 101) := .undefined
  status : Optional WriterStatus := .undefined
  notes : Optional String := .undefined
  deriving DecidableEq

/-- `Object.keys(dto)`: every declared field is a property. -/
def UpdatePublisherWriterDto.keys (_ : UpdatePublisherWriterDto) : List String :=
  ["commissionRate", "status", "notes"]

def PublisherWriter.update (link : PublisherWriter) (dto : UpdatePublisherWriterDto) (now : Int) :
    Except DatabaseError PublisherWriter :=
  match dto.commissionRate, dto.status with
  | .null, _ => .error (.notNullViolation "commission_rate")
  | _, .null => .error (.notNullViolation "status")
  | commissionRate, status => .ok
    { link with
      commissionRate := (commissionRate.orNull.map fun rate => (rate.val : Int)).getD
        link.commissionRate
      status := (status.orNull.map WriterStatus.value).getD link.status
      notes := match dto.notes with
        | .undefined => link.notes
        | notes => notes.orNull
      updatedAt := now }

inductive Event where
  | applicationSubmitted (applicationId userId companyName : String)
  | applicationReviewed (applicationId userId : String) (status : Verdict) (reviewedBy : String)
  | userUpgraded (userId oldType newType : String)
  | writerAdded (linkId publisherId writerId : String) (commissionRate : Int)
  | writerUpdated (publisherId writerId : String) (updatedFields : List String)
  | writerRemoved (publisherId writerId : String)
  deriving DecidableEq

structure Notification where
  userId : String
  type : String
  title : String
  message : String
  oldType : String
  newType : String
  deriving DecidableEq

inductive Call where
  /-- `new Date()` -/
  | now
  | findApplicationByUserId (userId : String)
  | findApplicationById (id : String)
  | insertApplication (data : NewPublisherApplication)
  | updateApplication (id : String) (changes : ApplicationChanges)
  | findWriterLink (publisherId writerId : String)
  | insertWriterLink (data : NewPublisherWriter)
  | updateWriterLink (publisherId writerId : String) (dto : UpdatePublisherWriterDto)
  | deleteWriterLink (publisherId writerId : String)
  | emit (event : Event)
  /-- `NotificationsService.create` -/
  | notify (notification : Notification)

namespace Call

abbrev Value : Call → Type
  | now => Int
  | findApplicationByUserId _ | findApplicationById _ => Option PublisherApplication
  | insertApplication _ => PublisherApplication
  | updateApplication _ _ => Option PublisherApplication
  | findWriterLink _ _ => Option PublisherWriter
  | insertWriterLink _ => PublisherWriter
  | updateWriterLink _ _ _ => Option PublisherWriter
  | deleteWriterLink _ _ | emit _ | notify _ => Unit

abbrev Answer (call : Call) : Type := Except Exception call.Value

def mayFail : Call → Bool
  | now => false
  | _ => true

end Call

/-- The accounts, and what the publishers have. -/
structure World where
  auth : Auth.World
  applications : Applications
  writers : Keyed PublisherWriter PublisherWriter.pair
  events : List Event
  notifications : List Notification

namespace World

def later (world : World) (elapsed : Nat) : World :=
  { world with auth := { world.auth with clock := world.auth.clock + elapsed } }

section Perform
variable (uuids : Uuids)

/-- The id that a statement names. -/
def read (text : String) : Except DatabaseError String :=
  match uuids.read text with
  | none => .error .invalidText
  | some id => .ok id

/-- The user that a written row refers to. -/
def reference (world : World) (text : String) : Except DatabaseError String := do
  let id ← read uuids text
  if (world.auth.findById id).isSome then return id else throw (.failed (some "23503"))

def insertApplication (world : World) (id : String) (data : NewPublisherApplication) :
    Except DatabaseError (PublisherApplication × World) := do
  let userId ← world.reference uuids data.userId
  let row : PublisherApplication :=
    { data with
      userId, id, reviewedBy := none, reviewedAt := none, rejectionReason := none
      createdAt := world.auth.clock, updatedAt := world.auth.clock }
  let applications ← world.applications.insert row
  return (row, { world with applications })

/-- The row, when there is one, and the user who reviewed it. -/
def updateApplication (world : World) (id : String) (changes : ApplicationChanges) :
    Except DatabaseError (Option PublisherApplication × World) := do
  let id ← read uuids id
  match world.applications.find? id with
  | none => return (none, world)
  | some application => do
    let reviewedBy ← world.reference uuids changes.reviewedBy
    let review := fun row : PublisherApplication =>
      row.review { changes with reviewedBy } world.auth.clock
    return (some (review application), { world with
      applications := world.applications.modify id review (fun _ => rfl) fun _ => rfl })

def pair (publisherId writerId : String) : Except DatabaseError (String × String) := do
  return (← read uuids publisherId, ← read uuids writerId)

def insertWriterLink (world : World) (id : String) (data : NewPublisherWriter) :
    Except DatabaseError (PublisherWriter × World) := do
  let publisherId ← world.reference uuids data.publisherId
  let writerId ← world.reference uuids data.writerId
  let row : PublisherWriter :=
    { data with
      publisherId, writerId, id, createdAt := world.auth.clock, updatedAt := world.auth.clock }
  match world.writers.insert? row with
  | none => throw (.uniqueViolation "publisher_writers_publisher_writer_unique")
  | some writers => return (row, { world with writers })

def updateWriterLink (world : World) (publisherId writerId : String)
    (dto : UpdatePublisherWriterDto) :
    Except DatabaseError (Option PublisherWriter × World) := do
  let pair ← pair uuids publisherId writerId
  match world.writers.find? pair with
  | none => return (none, world)
  | some link => do
    let updated ← link.update dto world.auth.clock
    return (some updated, { world with
      writers := world.writers.modify pair
        (fun row => { updated with publisherId := row.publisherId, writerId := row.writerId })
        fun _ => rfl })

/-- A statement that is rejected changes nothing. -/
def written {α : Type} (world : World) (result : Except DatabaseError (α × World)) :
    Except Exception α × World :=
  match result with
  | .error e => (.error (.drizzle e), world)
  | .ok (answer, after) => (.ok answer, after)

/-- A row that is inserted has the id that was made up for it. -/
def perform (random : String) (world : World) : (call : Call) → call.Answer × World
  | .now => (.ok world.auth.clock, world)
  | .findApplicationByUserId userId =>
    world.written ((read uuids userId).map fun userId =>
      (world.applications.findByUserId userId, world))
  | .findApplicationById id =>
    world.written ((read uuids id).map fun id => (world.applications.find? id, world))
  | .insertApplication data => world.written (world.insertApplication uuids random data)
  | .updateApplication id changes => world.written (world.updateApplication uuids id changes)
  | .findWriterLink publisherId writerId =>
    world.written ((pair uuids publisherId writerId).map fun pair =>
      (world.writers.find? pair, world))
  | .insertWriterLink data => world.written (world.insertWriterLink uuids random data)
  | .updateWriterLink publisherId writerId dto =>
    world.written (world.updateWriterLink uuids publisherId writerId dto)
  | .deleteWriterLink publisherId writerId =>
    world.written ((pair uuids publisherId writerId).map fun pair =>
      ((), { world with writers := world.writers.erase pair }))
  | .emit event => (.ok (), { world with events := world.events ++ [event] })
  | .notify notification =>
    (.ok (), { world with notifications := world.notifications ++ [notification] })

end Perform
end World

def queryFailed : Exception := .driver (.failed none)

/-- What the environment decides at a call. -/
abbrev Choice : Type := Auth.Choice

/-- Some time passes before the call, and a call that fails may have been performed. -/
def exec (uuids : Uuids) (choice : Choice) (world : World) (call : Call) :
    call.Answer × World :=
  let world := world.later choice.elapsed
  match call.mayFail, choice.outcome with
  | true, .refused => (.error queryFailed, world)
  | true, .lost => (.error queryFailed, (world.perform uuids choice.random call).2)
  | _, _ => world.perform uuids choice.random call

abbrev Method (α : Type) : Type := Fallible Call Call.Answer Exception α

def call (op : Call) : Method op.Value := ExceptT.mk (.call op .done)

namespace PublishersRepository

def createApplication (data : NewPublisherApplication) : Method PublisherApplication := do
  match ← call (.findApplicationByUserId data.userId) with
  | some _ => throw (.conflict (units "User already has a publisher application"))
  | none => call (.insertApplication data)

def updateApplication (id : String) (changes : ApplicationChanges) :
    Method PublisherApplication := do
  match ← call (.updateApplication id changes) with
  | none => throw (.notFound (units "Publisher application not found"))
  | some application => return application

def createWriterLink (data : NewPublisherWriter) : Method PublisherWriter := do
  match ← call (.findWriterLink data.publisherId data.writerId) with
  | some _ => throw (.conflict (units "Writer is already linked to this publisher"))
  | none => call (.insertWriterLink data)

def updateWriterLink (publisherId writerId : String) (dto : UpdatePublisherWriterDto) :
    Method PublisherWriter := do
  match ← call (.updateWriterLink publisherId writerId dto) with
  | none => throw (.notFound (units "Publisher-writer link not found"))
  | some link => return link

end PublishersRepository

namespace PublishersService

def submitApplication (userId : String) (dto : CreatePublisherApplicationDto) :
    Method PublisherApplication := do
  match ← call (.findApplicationByUserId userId) with
  | some _ => throw (.conflict (units "You already have a publisher application"))
  | none =>
    let application ← PublishersRepository.createApplication
      { userId, companyName := dto.companyName, companyWebsite := dto.companyWebsite.orNull
        companyAddress := dto.companyAddress.orNull, taxId := dto.taxId.orNull
        contactName := dto.contactName, contactEmail := dto.contactEmail
        contactPhone := dto.contactPhone.orNull, description := dto.description
        status := .pending }
    call (.emit (.applicationSubmitted application.id userId application.companyName))
    return application

def getApplicationById (id : String) : Method PublisherApplication := do
  match ← call (.findApplicationById id) with
  | none => throw (.notFound (units "Publisher application not found"))
  | some application => return application

/-- The account is not touched. -/
def approveApplication (application : PublisherApplication) : Method Unit :=
  call (.emit (.userUpgraded application.userId "reader" "publisher"))

/-- An empty reason is none. -/
def givenReason (dto : ReviewPublisherApplicationDto) : Option String :=
  dto.rejectionReason.orNull.filter (· ≠ "")

def reviewApplication (adminId id : String) (dto : ReviewPublisherApplicationDto) :
    Method PublisherApplication := do
  let application ← getApplicationById id
  if application.status ≠ .pending then
    throw (.conflict (units s!"Application is already {application.status.value}"))
  else
    let reviewedAt ← call .now
    if dto.status = .rejected ∧ givenReason dto = none then
      throw (.conflict (units "Rejection reason is required when rejecting an application"))
    else
      let updated ← PublishersRepository.updateApplication id
        { status := dto.status.status, reviewedBy := adminId, reviewedAt
          rejectionReason := if dto.status = .rejected then givenReason dto else none }
      if dto.status = .approved then approveApplication application
      call (.emit (.applicationReviewed updated.id application.userId dto.status adminId))
      return updated

def addWriter (publisherId : String) (dto : CreatePublisherWriterDto) :
    Method PublisherWriter := do
  let publisher ← getApplicationById publisherId
  if publisher.userId ≠ publisherId then
    throw (.forbidden (units "Only the publisher can add writers"))
  else if publisher.status ≠ .approved then
    throw (.forbidden (units "Publisher application must be approved first"))
  else
    let link ← PublishersRepository.createWriterLink
      { publisherId, writerId := dto.writerId
        commissionRate := (dto.commissionRate.orNull.map fun rate => (rate.val : Int)).getD 15
        status := "active", notes := dto.notes.orNull }
    call (.emit (.writerAdded link.id publisherId dto.writerId link.commissionRate))
    return link

def getWriterLink (publisherId writerId : String) : Method PublisherWriter := do
  match ← call (.findWriterLink publisherId writerId) with
  | none => throw (.notFound (units "Writer link not found"))
  | some link => return link

def updateWriterLink (publisherId writerId : String) (dto : UpdatePublisherWriterDto) :
    Method PublisherWriter := do
  let _ ← getWriterLink publisherId writerId
  let updated ← PublishersRepository.updateWriterLink publisherId writerId dto
  call (.emit (.writerUpdated publisherId writerId dto.keys))
  return updated

def removeWriter (publisherId writerId : String) : Method Unit := do
  let _ ← getWriterLink publisherId writerId
  call (.deleteWriterLink publisherId writerId)
  call (.emit (.writerRemoved publisherId writerId))

end PublishersService

namespace UserUpgradedEventHandler

def ACCOUNT_TYPE_LABELS : List (String × String) := [
  ("reader", "قارئ"),
  ("rising_star", "كاتب ناشئ"),
  ("professional", "كاتب محترف"),
  ("publisher", "دار نشر"),
  ("admin", "مدير النظام")]

def UPGRADE_MESSAGES : List (String × String) := [
  ("rising_star", "أصبح حسابك الآن \"كاتب ناشئ\". يمكنك الآن كتابة القصص، " ++
    "الوصول للتحليلات الكاملة، والتواصل مع دور النشر."),
  ("professional", "تهانينا! أصبح حسابك الآن \"كاتب محترف\". يمكنك الآن بيع كتبك الخاصة " ++
    "والاستفادة من جميع ميزات الكتّاب المحترفين."),
  ("publisher", "تم ترقية حسابك إلى \"دار نشر\". يمكنك الآن إنشاء وإدارة المسابقات، " ++
    "وبيع كتب الكتّاب الممثلين.")]

/-- The user is told, and that is all. -/
def handleUserUpgraded (userId oldType newType : String) : Method Unit :=
  let newTypeLabel := (ACCOUNT_TYPE_LABELS.lookup newType).getD newType
  call (.notify
    { userId, type := "system", title := "ترقية الحساب"
      message := (UPGRADE_MESSAGES.lookup newType).getD s!"تم ترقية حسابك إلى {newTypeLabel}."
      oldType, newType })

end UserUpgradedEventHandler

/-- What is asked of the service, and the handler of an upgrade. -/
inductive Operation where
  | submitApplication (userId : String) (dto : CreatePublisherApplicationDto)
  | reviewApplication (adminId id : String) (dto : ReviewPublisherApplicationDto)
  | addWriter (publisherId : String) (dto : CreatePublisherWriterDto)
  | updateWriterLink (publisherId writerId : String) (dto : UpdatePublisherWriterDto)
  | removeWriter (publisherId writerId : String)
  | handleUserUpgraded (userId oldType newType : String)
  deriving DecidableEq

def Operation.run : Operation → Method Unit
  | submitApplication userId dto => do
    let _ ← PublishersService.submitApplication userId dto
  | reviewApplication adminId id dto => do
    let _ ← PublishersService.reviewApplication adminId id dto
  | addWriter publisherId dto => do let _ ← PublishersService.addWriter publisherId dto
  | updateWriterLink publisherId writerId dto => do
    let _ ← PublishersService.updateWriterLink publisherId writerId dto
  | removeWriter publisherId writerId => PublishersService.removeWriter publisherId writerId
  | handleUserUpgraded userId oldType newType =>
    UserUpgradedEventHandler.handleUserUpgraded userId oldType newType

end Publishers
