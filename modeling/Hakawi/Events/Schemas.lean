import Hakawi.Events.Values

/-!
# The schemas of the events

A schema reads a value or names what is wrong with it. A schema of dates also reads texts, numbers
and null; what it reads is not what is delivered.
-/

namespace Events

/-- What the language and the validator make of texts. -/
structure Texts where
  toISOString : Int → String
  /-- `Date.parse` -/
  parseDate : String → Option Int
  /-- The text that an array or an object is turned into. -/
  string : Value → String
  isEmail : String → Bool

def MAX_TIME : Nat := 8640000000000000

/-- A number as a time. -/
def timeClip (value : Rat) : Option Int :=
  let time := value.num.tdiv value.den
  if time.natAbs ≤ MAX_TIME then some time else none

/-- `new Date(value).getTime()`, `none` when it is `NaN` -/
def newDate (texts : Texts) : Value → Option Int
  | .undefined | .nan | .infinity _ => none
  | .null | .bool false => some 0
  | .bool true => some 1
  | .num value => timeClip value
  | .str text => texts.parseDate text
  | .date time => time
  | .arr items => texts.parseDate (texts.string (.arr items))
  | .obj fields => texts.parseDate (texts.string (.obj fields))

inductive Schema where
  | string
  | email
  | number
  | enum (options : List String)
  /-- `z.coerce.date()` -/
  | date
  | requiredTimestamp
  /-- `z.record(z.string(), z.unknown())` -/
  | record
  | nullable (schema : Schema)
  | optional (schema : Schema)
  | object (fields : List (String × Schema))

structure Issue where
  path : List String
  message : String
  deriving DecidableEq

def Issue.within (key : String) (issue : Issue) : Issue := { issue with path := key :: issue.path }

/-- What a value is called where another one is expected. -/
def Value.typeName : Value → String
  | .undefined => "undefined"
  | .null => "null"
  | .bool _ => "boolean"
  | .nan => "nan"
  | .infinity _ | .num _ => "number"
  | .str _ => "string"
  | .date _ => "date"
  | .arr _ => "array"
  | .obj _ => "object"

def wrongType (expected : String) : Value → Except (List Issue) Value
  | .undefined => .error [⟨[], "Required"⟩]
  | received => .error [⟨[], s!"Expected {expected}, received {received.typeName}"⟩]

/-- The names of an enumeration as an issue lists them. -/
def joinOptions (options : List String) : String :=
  " | ".intercalate (options.map fun option => "'" ++ option ++ "'")

def dateOr (time : Option Int) : Except (List Issue) Value :=
  match time with
  | some time => .ok (.date (some time))
  | none => .error [⟨[], "Invalid date"⟩]

section Parsing
variable (texts : Texts)

mutual

/-- `schema.safeParse(value)` -/
def Schema.safeParse : Schema → Value → Except (List Issue) Value
  | .string, value => match value with
    | .str text => .ok (.str text)
    | other => wrongType "string" other
  | .email, value => match value with
    | .str text => if texts.isEmail text then .ok (.str text) else .error [⟨[], "Invalid email"⟩]
    | other => wrongType "string" other
  | .number, value => match value with
    | .num number => .ok (.num number)
    | .infinity negative => .ok (.infinity negative)
    | other => wrongType "number" other
  | .enum options, value => match value with
    | .str text =>
      if text ∈ options then .ok (.str text)
      else .error [⟨[], s!"Invalid enum value. Expected {joinOptions options}, received '" ++
        text ++ "'"⟩]
    | other => wrongType (joinOptions options) other
  | .date, value => dateOr (newDate texts value)
  | .requiredTimestamp, value => match value with
    | .null | .undefined => dateOr none
    | other => dateOr (newDate texts other)
  | .record, value => match value with
    | .obj fields => .ok (.obj fields)
    | other => wrongType "object" other
  | .nullable schema, value => match value with
    | .null => .ok .null
    | other => schema.safeParse other
  | .optional schema, value => match value with
    | .undefined => .ok .undefined
    | other => schema.safeParse other
  | .object shape, value => match value with
    | .obj fields => (parseFields shape fields).map .obj
    | other => wrongType "object" other

/-- Every field of the shape, all their issues together; other fields are left out. -/
def parseFields : List (String × Schema) → List (String × Value) →
    Except (List Issue) (List (String × Value))
  | [], _ => .ok []
  | (key, schema) :: shape, fields =>
    match schema.safeParse (Value.field fields key), parseFields shape fields with
    | .ok .undefined, .ok rest =>
      .ok (if (fields.lookup key).isSome then (key, .undefined) :: rest else rest)
    | .ok value, .ok rest => .ok ((key, value) :: rest)
    | .ok _, .error issues => .error issues
    | .error found, .ok _ => .error (found.map (Issue.within key))
    | .error found, .error issues => .error (found.map (Issue.within key) ++ issues)

end

def Schema.accepts (schema : Schema) (value : Value) : Prop :=
  ∃ parsed, schema.safeParse texts value = .ok parsed

end Parsing

/-- All fields are texts. -/
def Schema.strings (keys : List String) : Schema := .object (keys.map (·, .string))

def UserRegisteredSchema : Schema :=
  .object [("userId", .string), ("email", .email), ("name", .string)]

def UserUpdatedSchema : Schema :=
  .object [("userId", .string), ("updatedFields", .record)]

def StorySnapshotSchema : Schema :=
  .object [("id", .string), ("authorId", .string), ("title", .string), ("slug", .string),
    ("excerpt", .optional (.nullable .string)), ("content", .optional (.nullable .string)),
    ("coverImage", .optional (.nullable .string)), ("status", .string),
    ("publishedAt", .optional (.nullable .date))]

def StoryCreatedSchema : Schema :=
  .object [("storyId", .string), ("authorId", .string), ("story", .optional StorySnapshotSchema)]

def StoryUpdatedSchema : Schema :=
  .object [("storyId", .string), ("updatedFields", .record),
    ("story", .optional StorySnapshotSchema)]

def StoryPublishedSchema : Schema :=
  .object [("storyId", .string), ("publishedAt", .date), ("story", .optional StorySnapshotSchema)]

def StoryArchivedSchema : Schema :=
  .object [("storyId", .string), ("story", .optional StorySnapshotSchema)]

def StoryDeletedSchema : Schema := .strings ["storyId", "authorId"]

def FollowCreatedSchema : Schema := .strings ["followerId", "followingId"]

def FollowDeletedSchema : Schema := .strings ["followerId", "followingId"]

def ReactionCreatedSchema : Schema := .strings ["userId", "storyId", "reactionType"]

def ReactionDeletedSchema : Schema := .strings ["userId", "storyId"]

def CommentCreatedSchema : Schema :=
  .object [("commentId", .string), ("storyId", .string), ("authorId", .string),
    ("parentId", .optional .string)]

def CommentUpdatedSchema : Schema := .strings ["commentId", "storyId"]

def CommentDeletedSchema : Schema := .strings ["commentId", "storyId"]

def CommentReactionCreatedSchema : Schema := .strings ["userId", "commentId", "reactionType"]

def CommentReactionDeletedSchema : Schema := .strings ["userId", "commentId"]

def NotificationCreatedSchema : Schema := .strings ["notificationId", "userId", "type"]

def MessageSentSchema : Schema :=
  .object [("messageId", .string), ("conversationId", .string), ("senderId", .string),
    ("recipientId", .optional .string)]

def MessageReadSchema : Schema := .strings ["messageId", "conversationId", "readBy"]

def EmailVerifiedSchema : Schema := .strings ["userId", "email"]

def EmailVerificationRequestedSchema : Schema := .strings ["userId", "email"]

def PasswordResetRequestedSchema : Schema := .strings ["userId", "email"]

def PasswordResetCompletedSchema : Schema := .strings ["userId"]

def ContestCreatedSchema : Schema := .strings ["contestId", "createdBy"]

def ContestUpdatedSchema : Schema :=
  .object [("contestId", .string), ("updatedFields", .record)]

def ContestStartedSchema : Schema := .strings ["contestId"]

def ContestCompletedSchema : Schema :=
  .object [("contestId", .string), ("winnerId", .nullable .string)]

def ContestCancelledSchema : Schema := .strings ["contestId"]

def SubmissionSubmittedSchema : Schema := .strings ["submissionId", "contestId", "authorId"]

def SubmissionApprovedSchema : Schema := .strings ["submissionId", "contestId", "authorId"]

def SubmissionRejectedSchema : Schema := .strings ["submissionId", "contestId", "authorId"]

def VoteCastSchema : Schema := .strings ["voteId", "contestId", "submissionId", "userId"]

def WinnerSelectedSchema : Schema := .strings ["contestId", "submissionId", "winnerId"]

def PrizeDistributedSchema : Schema := .strings ["prizeId", "contestId", "winnerId"]

def BookCreatedSchema : Schema := .strings ["bookId", "userId"]

def BookUpdatedSchema : Schema :=
  .object [("bookId", .string), ("updatedFields", .record)]

def BookPublishedSchema : Schema :=
  .object [("bookId", .string), ("publishedAt", .date)]

def BookArchivedSchema : Schema := .strings ["bookId"]

def BookDeletedSchema : Schema := .strings ["bookId", "userId"]

def PaymentInitiatedSchema : Schema := .strings ["paymentId", "userId"]

def PaymentCompletedSchema : Schema := .strings ["paymentId"]

def PaymentFailedSchema : Schema :=
  .object [("paymentId", .string), ("failureStage", .optional .string)]

def PaymentRefundedSchema : Schema := .strings ["paymentId", "refundId"]

def RefundCompletedSchema : Schema := .strings ["paymentId", "refundId"]

def RefundFailedSchema : Schema := .strings ["paymentId", "refundId"]

def RentalCreatedSchema : Schema := .strings ["rentalId", "userId", "bookId"]

def RentalExtendedSchema : Schema := .strings ["rentalId"]

def RentalReturnedSchema : Schema := .strings ["rentalId"]

def RentalExpiredSchema : Schema := .strings ["rentalId"]

def LibraryItemAddedSchema : Schema := .strings ["libraryItemId", "userId", "bookId"]

def LibraryItemAccessedSchema : Schema := .strings ["libraryItemId", "userId"]

def LibraryItemRemovedSchema : Schema := .strings ["libraryItemId", "userId"]

def ModerationReportCreatedSchema : Schema :=
  .object [("reportId", .string), ("reporterId", .nullable .string), ("targetId", .string),
    ("targetType", .string), ("reason", .string), ("source", .optional (.enum ["user", "auto"]))]

def ModerationActionTakenSchema : Schema :=
  .strings ["actionId", "reportId", "adminId", "targetUserId", "action", "reason"]

def ModerationContentRemovedSchema : Schema :=
  .strings ["reportId", "targetType", "targetId", "adminId", "reason"]

def AdminRoleAssignedSchema : Schema :=
  .object [("userId", .string), ("adminRole", .string), ("assignedBy", .string),
    ("reason", .string), ("expiresAt", .nullable .date)]

def AdminRoleRevokedSchema : Schema := .strings ["userId", "adminRole", "revokedBy", "reason"]

def AdminRoleBreakGlassSchema : Schema :=
  .object [("userId", .string), ("adminRole", .string), ("invokedBy", .string),
    ("reason", .string), ("expiresAt", .requiredTimestamp), ("durationMinutes", .number)]

def MfaEnabledSchema : Schema := .strings ["userId"]

def MfaDisabledSchema : Schema := .strings ["userId"]

def UserUpgradedSchema : Schema := .strings ["userId", "oldType", "newType"]

def ModerationEscalatedSchema : Schema :=
  .object [("reportId", .string), ("targetId", .string), ("previousStatus", .string),
    ("previousUpdatedAt", .date)]

def PublisherApplicationSubmittedSchema : Schema :=
  .strings ["applicationId", "userId", "companyName"]

def PublisherApplicationReviewedSchema : Schema :=
  .object [("applicationId", .string), ("userId", .string),
    ("status", .enum ["approved", "rejected"]), ("reviewedBy", .string)]

def PublisherWriterAddedSchema : Schema :=
  .object [("linkId", .string), ("publisherId", .string), ("writerId", .string),
    ("commissionRate", .number)]

def PublisherWriterUpdatedSchema : Schema :=
  .object [("publisherId", .string), ("writerId", .string), ("updatedFields", .record)]

def PublisherWriterRemovedSchema : Schema := .strings ["publisherId", "writerId"]

/-- Every name has one version, `v1`. -/
def EVENT_SCHEMAS : List (String × Schema) := [
  ("user.registered", UserRegisteredSchema),
  ("story.created", StoryCreatedSchema),
  ("story.updated", StoryUpdatedSchema),
  ("story.published", StoryPublishedSchema),
  ("story.archived", StoryArchivedSchema),
  ("story.deleted", StoryDeletedSchema),
  ("comment.created", CommentCreatedSchema),
  ("comment.updated", CommentUpdatedSchema),
  ("comment.deleted", CommentDeletedSchema),
  ("notification.created", NotificationCreatedSchema),
  ("message.sent", MessageSentSchema),
  ("message.read", MessageReadSchema),
  ("email.verified", EmailVerifiedSchema),
  ("email.verification.requested", EmailVerificationRequestedSchema),
  ("password.reset.requested", PasswordResetRequestedSchema),
  ("password.reset.completed", PasswordResetCompletedSchema),
  ("contest.created", ContestCreatedSchema),
  ("contest.updated", ContestUpdatedSchema),
  ("contest.started", ContestStartedSchema),
  ("contest.completed", ContestCompletedSchema),
  ("contest.cancelled", ContestCancelledSchema),
  ("submission.submitted", SubmissionSubmittedSchema),
  ("submission.approved", SubmissionApprovedSchema),
  ("submission.rejected", SubmissionRejectedSchema),
  ("vote.cast", VoteCastSchema),
  ("winner.selected", WinnerSelectedSchema),
  ("prize.distributed", PrizeDistributedSchema),
  ("book.created", BookCreatedSchema),
  ("book.updated", BookUpdatedSchema),
  ("book.published", BookPublishedSchema),
  ("book.archived", BookArchivedSchema),
  ("book.deleted", BookDeletedSchema),
  ("payment.created", PaymentInitiatedSchema),
  ("payment.completed", PaymentCompletedSchema),
  ("payment.failed", PaymentFailedSchema),
  ("rental.created", RentalCreatedSchema),
  ("rental.extended", RentalExtendedSchema),
  ("rental.returned", RentalReturnedSchema),
  ("rental.expired", RentalExpiredSchema),
  ("library.item.added", LibraryItemAddedSchema),
  ("library.item.accessed", LibraryItemAccessedSchema),
  ("library.item.removed", LibraryItemRemovedSchema),
  ("moderation.report.created", ModerationReportCreatedSchema),
  ("moderation.report.escalated", ModerationEscalatedSchema),
  ("moderation.action.taken", ModerationActionTakenSchema),
  ("moderation.content.removed", ModerationContentRemovedSchema),
  ("refund.created", PaymentRefundedSchema),
  ("refund.failed", RefundFailedSchema),
  ("user.followed", FollowCreatedSchema),
  ("user.unfollowed", FollowDeletedSchema),
  ("story.reacted", ReactionCreatedSchema),
  ("story.reaction.removed", ReactionDeletedSchema),
  ("comment.reacted", CommentReactionCreatedSchema),
  ("comment.reaction.removed", CommentReactionDeletedSchema),
  ("mfa.enabled", MfaEnabledSchema),
  ("mfa.disabled", MfaDisabledSchema),
  ("user.upgraded", UserUpgradedSchema),
  ("publisher.application.submitted", PublisherApplicationSubmittedSchema),
  ("publisher.application.reviewed", PublisherApplicationReviewedSchema),
  ("publisher.writer.added", PublisherWriterAddedSchema),
  ("publisher.writer.updated", PublisherWriterUpdatedSchema),
  ("publisher.writer.removed", PublisherWriterRemovedSchema),
  ("admin_role.assigned", AdminRoleAssignedSchema),
  ("admin_role.revoked", AdminRoleRevokedSchema),
  ("admin_role.break_glass", AdminRoleBreakGlassSchema),
  ("user.updated", UserUpdatedSchema),
  ("refund.completed", RefundCompletedSchema)]

/-- `EventSchemaRegistry.validateEvent` -/
def validateEvent (texts : Texts) (eventName : String) (payload : Value) : Except String Value :=
  match EVENT_SCHEMAS.lookup eventName with
  | none => .error s!"No schema registered for event {eventName} with version v1"
  | some schema => (schema.safeParse texts payload).mapError fun issues =>
    ", ".intercalate (issues.map fun issue => ".".intercalate issue.path ++ ": " ++ issue.message)

end Events
