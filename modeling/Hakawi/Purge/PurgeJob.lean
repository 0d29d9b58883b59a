import Hakawi.Store.Relations

/-!
# The tables of the migrations

The columns and foreign keys that matter to a purge, as the migrations leave them: which
tables mark their rows as deleted, and what deleting a row does to the rows that point at it.
-/

namespace Purge
open Store

inductive TableName where
  | users
  | categories
  | tags
  | stories
  | storyTags
  | follows
  | reactions
  | comments
  | commentReactions
  | notifications
  | conversations
  | messages
  | uploads
  | reports
  | moderationActions
  | userRestrictions
  | notificationPreferences
  | bookCategories
  | books
  | bookTags
  | readingProgress
  | payments
  | paymentTransactions
  | refunds
  | rentals
  | rentalExtensions
  | contests
  | contestSubmissions
  | contestVotes
  | contestPrizes
  | library
  | badges
  | userBadges
  | publisherApplications
  | publisherWriters
  | adminRoleAssignments
  | messagesP
  | notificationsP
  | paymentTransactionsP
  | reactionsP
  deriving DecidableEq, Repr

namespace TableName

def sql : TableName → String
  | users => "users"
  | categories => "categories"
  | tags => "tags"
  | stories => "stories"
  | storyTags => "story_tags"
  | follows => "follows"
  | reactions => "reactions"
  | comments => "comments"
  | commentReactions => "comment_reactions"
  | notifications => "notifications"
  | conversations => "conversations"
  | messages => "messages"
  | uploads => "uploads"
  | reports => "reports"
  | moderationActions => "moderation_actions"
  | userRestrictions => "user_restrictions"
  | notificationPreferences => "notification_preferences"
  | bookCategories => "book_categories"
  | books => "books"
  | bookTags => "book_tags"
  | readingProgress => "reading_progress"
  | payments => "payments"
  | paymentTransactions => "payment_transactions"
  | refunds => "refunds"
  | rentals => "rentals"
  | rentalExtensions => "rental_extensions"
  | contests => "contests"
  | contestSubmissions => "contest_submissions"
  | contestVotes => "contest_votes"
  | contestPrizes => "contest_prizes"
  | library => "library"
  | badges => "badges"
  | userBadges => "user_badges"
  | publisherApplications => "publisher_applications"
  | publisherWriters => "publisher_writers"
  | adminRoleAssignments => "admin_role_assignments"
  | messagesP => "messages_p"
  | notificationsP => "notifications_p"
  | paymentTransactionsP => "payment_transactions_p"
  | reactionsP => "reactions_p"

def all : List TableName := [
  .users, .categories, .tags, .stories, .storyTags, .follows, .reactions, .comments,
  .commentReactions, .notifications, .conversations, .messages, .uploads, .reports,
  .moderationActions, .userRestrictions, .notificationPreferences, .bookCategories, .books,
  .bookTags, .readingProgress, .payments, .paymentTransactions, .refunds, .rentals,
  .rentalExtensions, .contests, .contestSubmissions, .contestVotes, .contestPrizes, .library,
  .badges, .userBadges, .publisherApplications, .publisherWriters, .adminRoleAssignments,
  .messagesP, .notificationsP, .paymentTransactionsP, .reactionsP]

/-- The seven tables that have a column `deleted_at`. -/
def hasDeletedAt : TableName → Bool
  | users | stories | comments | uploads | books | payments | rentals => true
  | _ => false

end TableName

def FOREIGN_KEYS : List (ForeignKey TableName) := [
  ⟨.stories, "author_id", .users, .cascade⟩, ⟨.stories, "category_id", .categories, .noAction⟩,
  ⟨.storyTags, "story_id", .stories, .cascade⟩, ⟨.storyTags, "tag_id", .tags, .cascade⟩,
  ⟨.follows, "follower_id", .users, .cascade⟩, ⟨.follows, "following_id", .users, .cascade⟩,
  ⟨.reactions, "user_id", .users, .cascade⟩, ⟨.reactions, "story_id", .stories, .cascade⟩,
  ⟨.comments, "story_id", .stories, .cascade⟩, ⟨.comments, "author_id", .users, .cascade⟩,
  ⟨.comments, "parent_id", .comments, .cascade⟩, ⟨.commentReactions, "user_id", .users, .cascade⟩,
  ⟨.commentReactions, "comment_id", .comments, .cascade⟩,
  ⟨.notifications, "user_id", .users, .cascade⟩,
  ⟨.conversations, "participant1_id", .users, .cascade⟩,
  ⟨.conversations, "participant2_id", .users, .cascade⟩,
  ⟨.messages, "conversation_id", .conversations, .cascade⟩,
  ⟨.messages, "sender_id", .users, .cascade⟩, ⟨.uploads, "uploaded_by_id", .users, .noAction⟩,
  ⟨.uploads, "story_id", .stories, .noAction⟩, ⟨.reports, "reporter_id", .users, .noAction⟩,
  ⟨.moderationActions, "report_id", .reports, .noAction⟩,
  ⟨.moderationActions, "admin_id", .users, .noAction⟩,
  ⟨.moderationActions, "target_user_id", .users, .noAction⟩,
  ⟨.userRestrictions, "user_id", .users, .noAction⟩,
  ⟨.userRestrictions, "created_by", .users, .noAction⟩,
  ⟨.notificationPreferences, "user_id", .users, .cascade⟩,
  ⟨.books, "category_id", .bookCategories, .noAction⟩, ⟨.books, "owner_id", .users, .noAction⟩,
  ⟨.bookTags, "book_id", .books, .noAction⟩, ⟨.bookTags, "tag_id", .tags, .noAction⟩,
  ⟨.readingProgress, "user_id", .users, .noAction⟩,
  ⟨.readingProgress, "book_id", .books, .noAction⟩, ⟨.payments, "user_id", .users, .noAction⟩,
  ⟨.paymentTransactions, "payment_id", .payments, .noAction⟩,
  ⟨.refunds, "payment_id", .payments, .noAction⟩, ⟨.rentals, "user_id", .users, .noAction⟩,
  ⟨.rentals, "book_id", .books, .noAction⟩, ⟨.rentalExtensions, "rental_id", .rentals, .noAction⟩,
  ⟨.contests, "category_id", .categories, .noAction⟩,
  ⟨.contests, "created_by", .users, .noAction⟩,
  ⟨.contestSubmissions, "contest_id", .contests, .cascade⟩,
  ⟨.contestSubmissions, "story_id", .stories, .noAction⟩,
  ⟨.contestSubmissions, "author_id", .users, .noAction⟩,
  ⟨.contestSubmissions, "reviewed_by", .users, .noAction⟩,
  ⟨.contestVotes, "contest_id", .contests, .cascade⟩,
  ⟨.contestVotes, "submission_id", .contestSubmissions, .cascade⟩,
  ⟨.contestVotes, "user_id", .users, .noAction⟩,
  ⟨.contestPrizes, "contest_id", .contests, .cascade⟩,
  ⟨.contestPrizes, "submission_id", .contestSubmissions, .cascade⟩,
  ⟨.contestPrizes, "winner_id", .users, .noAction⟩, ⟨.library, "user_id", .users, .noAction⟩,
  ⟨.library, "book_id", .books, .noAction⟩, ⟨.library, "rental_id", .rentals, .noAction⟩,
  ⟨.userBadges, "user_id", .users, .cascade⟩, ⟨.userBadges, "badge_id", .badges, .cascade⟩,
  ⟨.userBadges, "awarded_by", .users, .noAction⟩, ⟨.users, "represented_by_id", .users, .setNull⟩,
  ⟨.publisherApplications, "user_id", .users, .cascade⟩,
  ⟨.publisherApplications, "reviewed_by", .users, .noAction⟩,
  ⟨.publisherWriters, "publisher_id", .users, .cascade⟩,
  ⟨.publisherWriters, "writer_id", .users, .cascade⟩,
  ⟨.adminRoleAssignments, "user_id", .users, .cascade⟩,
  ⟨.adminRoleAssignments, "assigned_by", .users, .restrict⟩,
  ⟨.adminRoleAssignments, "revoked_by", .users, .setNull⟩,
  ⟨.messagesP, "conversation_id", .conversations, .cascade⟩,
  ⟨.messagesP, "sender_id", .users, .cascade⟩, ⟨.notificationsP, "user_id", .users, .cascade⟩,
  ⟨.paymentTransactionsP, "payment_id", .payments, .cascade⟩,
  ⟨.reactionsP, "user_id", .users, .cascade⟩, ⟨.reactionsP, "story_id", .stories, .cascade⟩]

/-- The array of `purge_soft_deleted`, in its order; two tables are in it twice. -/
def PURGED : List TableName := [
  .commentReactions, .comments, .storyTags, .follows, .reactions, .messages, .conversations,
  .notifications, .rentals, .rentalExtensions, .library, .readingProgress, .contestVotes,
  .contestSubmissions, .contestPrizes, .refunds, .paymentTransactions, .payments, .uploads,
  .reports, .moderationActions, .userRestrictions, .userBadges, .books, .rentals, .stories,
  .books, .users]

/-!
## The purge of soft-deleted rows

`purge_soft_deleted` runs one statement on each table of its array. The statement names the
column `deleted_at`, which most of the tables do not have, the first of them included.
-/

/-- The tables that exist, and their rows in the order in which a scan finds them. -/
structure Database where
  present : TableName → Bool
  rows : Relations TableName

/-- The foreign keys between the tables that exist hold. -/
def Database.Satisfies (db : Database) : Prop :=
  db.rows.Satisfies (FOREIGN_KEYS.filter fun key => db.present key.table)

inductive SqlError where
  | undefinedTable (table : String)
  | undefinedColumn (column : String)
  | foreignKeyViolation (table column : String)
  | negativeLimit
  | timestampOutOfRange
  deriving DecidableEq, Repr

/-- The first moment of a `timestamptz`, in milliseconds. -/
def MIN_TIMESTAMP : Int := -210866803200000

/-- The first moment behind its last. -/
def END_TIMESTAMP : Int := 9224318016000000

/-- `now() - (p_retention_days || ' days')::interval` -/
def cutoff (now retentionDays : Int) : Except SqlError Int :=
  let moment := now - retentionDays * 86400000
  if MIN_TIMESTAMP ≤ moment ∧ moment < END_TIMESTAMP then .ok moment
  else .error .timestampOutOfRange

/-- `deleted_at IS NOT NULL AND deleted_at < $1` -/
def Expired (moment : Int) (row : Record) : Bool := row.deletedAt.any (· < moment)

/-- What a visit of a table counts or deletes, and the tables after it. -/
def visit (moment batchSize : Int) (dryRun : Bool) (db : Database) (table : TableName) :
    Except SqlError (Nat × Database) :=
  if db.present table = false then .error (.undefinedTable table.sql)
  else if table.hasDeletedAt = false then .error (.undefinedColumn "deleted_at")
  else
    let expired := (db.rows table).filter (Expired moment)
    if dryRun then .ok (expired.length, db)
    else if batchSize < 0 then .error .negativeLimit
    else
      let batch := expired.take batchSize.toNat
      match Relations.delete (FOREIGN_KEYS.filter fun key => db.present key.table) db.rows
          TableName.all fun other id => other = table && batch.any (·.id = id) with
      | .error key => .error (.foreignKeyViolation key.table.sql key.column)
      | .ok rows => .ok (batch.length, { db with rows })

/-- One pass of the loop; `RETURN QUERY` adds a row to the report. -/
def purgeTable (moment batchSize : Int) (dryRun : Bool)
    (state : List (String × Nat) × Database) (table : TableName) :
    Except SqlError (List (String × Nat) × Database) := do
  let (deleted, db) ← visit moment batchSize dryRun state.2 table
  return (state.1 ++ [(table.sql, deleted)], db)

/-- The call is one statement: an error undoes what its visits did. -/
def purgeSoftDeleted (batchSize retentionDays : Int) (dryRun : Bool) (now : Int) (db : Database) :
    Except SqlError (List (String × Nat)) × Database :=
  let run := do
    let moment ← cutoff now retentionDays
    PURGED.foldlM (purgeTable moment batchSize dryRun) ([], db)
  match run with
  | .ok (report, after) => (.ok report, after)
  | .error error => (.error error, db)

/-- The rows of a table that are gone after a run. -/
def Gone (before after : Database) (table : TableName) (row : Record) : Prop :=
  row ∈ before.rows table ∧ ∀ other ∈ after.rows table, other.id ≠ row.id

/-- The run returns a report, deletes expired rows only and no more than a batch at a visit,
and the dry run counts for each visit what the run deletes there if no batch is full. -/
structure PurgesAsStated (batchSize retentionDays now : Int) (db : Database) : Prop where
  returns : ∃ report, (purgeSoftDeleted batchSize retentionDays false now db).1 = .ok report
  expired : ∀ table row,
    Gone db (purgeSoftDeleted batchSize retentionDays false now db).2 table row →
      Expired (now - retentionDays * 86400000) row
  batches : ∀ report, (purgeSoftDeleted batchSize retentionDays false now db).1 = .ok report →
    ∀ entry ∈ report, (entry.2 : Int) ≤ batchSize
  dryRun : ∀ report, (purgeSoftDeleted batchSize retentionDays false now db).1 = .ok report →
    (∀ entry ∈ report, (entry.2 : Int) < batchSize) →
      (purgeSoftDeleted batchSize retentionDays true now db).1 = .ok report

section Visits
variable {moment batchSize : Int} {dryRun : Bool} {db : Database}

/-- A visit goes through on the tables that mark their rows, and on no others. -/
theorem hasDeletedAt_of_visit {table : TableName} {result : Nat × Database}
    (h : visit moment batchSize dryRun db table = .ok result) : table.hasDeletedAt := by
  unfold visit at h
  split at h
  · cases h
  · split at h
    · cases h
    · rename_i marked
      simpa using marked

example : PURGED.filter (·.hasDeletedAt) =
    [.comments, .rentals, .payments, .uploads, .books, .rentals, .stories, .books, .users] := rfl

variable (moment batchSize dryRun) in
/-- The loop stops with an error at the first table without the column. -/
theorem foldlM_purgeTable_unmarked {tables : List TableName}
    (unmarked : ∃ table ∈ tables, table.hasDeletedAt = false) (report : List (String × Nat))
    (db : Database) :
    ∃ error, tables.foldlM (purgeTable moment batchSize dryRun) (report, db) = .error error := by
  induction tables generalizing report db with
  | nil =>
    obtain ⟨table, member, -⟩ := unmarked
    cases member
  | cons first rest ih =>
    rw [List.foldlM_cons]
    cases visited : visit moment batchSize dryRun db first with
    | error error =>
      refine ⟨error, ?_⟩
      simp [purgeTable, visited, bind, Except.bind]
    | ok result =>
      have later : ∃ table ∈ rest, table.hasDeletedAt = false := by
        obtain ⟨table, member, none⟩ := unmarked
        rcases List.mem_cons.mp member with rfl | later
        · rw [hasDeletedAt_of_visit visited] at none
          cases none
        · exact ⟨table, later, none⟩
      obtain ⟨error, stopped⟩ := ih later (report ++ [(first.sql, result.1)]) result.2
      refine ⟨error, ?_⟩
      simpa [purgeTable, visited, bind, Except.bind, pure, Except.pure] using stopped

end Visits

/-- Whatever the tables hold and whatever is asked for, the purge throws and changes
nothing. -/
theorem purgeSoftDeleted_throws (batchSize retentionDays : Int) (dryRun : Bool) (now : Int)
    (db : Database) :
    ∃ error, purgeSoftDeleted batchSize retentionDays dryRun now db = (.error error, db) := by
  unfold purgeSoftDeleted
  cases cutoff now retentionDays with
  | error error => exact ⟨error, rfl⟩
  | ok moment =>
    have unmarked : ∃ table ∈ PURGED, table.hasDeletedAt = false :=
      ⟨.commentReactions, by decide, rfl⟩
    obtain ⟨error, stopped⟩ := foldlM_purgeTable_unmarked moment batchSize dryRun unmarked [] db
    exact ⟨error, by simp [stopped, bind, Except.bind]⟩

/-- On no database does the purge do what it is for. -/
theorem not_purgesAsStated (batchSize retentionDays now : Int) (db : Database) :
    ¬ PurgesAsStated batchSize retentionDays now db := by
  intro stated
  obtain ⟨report, returned⟩ := stated.returns
  obtain ⟨error, thrown⟩ := purgeSoftDeleted_throws batchSize retentionDays false now db
  rw [thrown] at returned
  cases returned

/-- All tables, without rows. -/
def emptyTables : Database := ⟨fun _ => true, fun _ => []⟩

/-- Empty tables satisfy every key, and the first visit has no column to look at. -/
theorem purge_empty_throws : emptyTables.Satisfies ∧
    (purgeSoftDeleted 1000 30 false 1800000000000 emptyTables).1 =
      .error (.undefinedColumn "deleted_at") ∧
    ¬ PurgesAsStated 1000 30 1800000000000 emptyTables := by
  refine ⟨fun _ _ _ member => absurd member List.not_mem_nil, rfl, fun stated => ?_⟩
  obtain ⟨report, returned⟩ := stated.returns
  cases returned

end Purge
