import Hakawi.Common.Exceptions
import Hakawi.Effects.Pool
import Hakawi.Store.Table
import Mathlib.Data.List.Sort

/-!
# Reports and their escalation

A report is filed open. Three operations move reports on without anybody asking:
the check that follows every report, the sweep over the stale ones, and the
filter that files a report itself. Each reads the open reports, changes them in a
second statement, and announces one event for each report it has moved.
-/

namespace Moderation

open Common Store Effects

inductive TargetType where
  | story
  | comment
  | user
  deriving DecidableEq

inductive ReportStatus where
  | open_
  | inReview
  | escalated
  | resolved
  | dismissed
  deriving DecidableEq

inductive ReportSource where
  | user
  | auto
  deriving DecidableEq

structure Report where
  id : Nat
  reporterId : Option String
  targetId : String
  targetType : TargetType
  reason : String
  description : Option String
  status : ReportStatus
  source : ReportSource
  escalatedAt : Option Int
  createdAt : Int
  updatedAt : Int
  deriving DecidableEq

/-- What an `INSERT` into the reports is given. -/
structure NewReport where
  reporterId : Option String
  targetId : String
  targetType : TargetType
  reason : String
  description : Option String
  source : ReportSource
  deriving DecidableEq

abbrev Reports : Type := Table Report Report.id

/-- Rows of a `SELECT`: a row comes once. -/
structure Selection where
  rows : List Report
  unique : (rows.map Report.id).Nodup

/-- `ORDER BY created_at`; `rank` is the order of the rows that it leaves open. -/
def byCreatedAt (rank : Nat → Nat) (a b : Report) : Prop :=
  a.createdAt < b.createdAt ∨ a.createdAt = b.createdAt ∧ rank a.id ≤ rank b.id

instance (rank : Nat → Nat) : DecidableRel (byCreatedAt rank) :=
  fun _ _ => inferInstanceAs (Decidable (_ ∨ _ ∧ _))

def byRank (rank : Nat → Nat) (a b : Report) : Prop := rank a.id ≤ rank b.id

instance (rank : Nat → Nat) : DecidableRel (byRank rank) :=
  fun _ _ => inferInstanceAs (Decidable (_ ≤ _))

namespace Reports
variable (reports : Reports)

def select (matching : Report → Bool) (before : Report → Report → Prop) [DecidableRel before] :
    Selection where
  rows := (reports.rows.filter matching).insertionSort before
  unique := by
    have sublist : ((reports.rows.filter matching).map Report.id).Nodup :=
      (List.filter_sublist.map _).nodup reports.unique
    exact ((List.perm_insertionSort before _).map Report.id).nodup_iff.mpr sublist

def newReport (input : NewReport) (now : Int) (id : Nat) : Report :=
  { id, reporterId := input.reporterId, targetId := input.targetId
    targetType := input.targetType, reason := input.reason, description := input.description
    status := .open_, source := input.source, escalatedAt := none
    createdAt := now, updatedAt := now }

@[simp] theorem newReport_id (input : NewReport) (now : Int) (id : Nat) :
    (newReport input now id).id = id := rfl

/-- Reports of the target filed after a time. -/
def countSince (targetId : String) (time : Int) : Nat :=
  reports.count fun r => r.targetId = targetId ∧ time < r.createdAt

def isOpenOn (targetId : String) (report : Report) : Bool :=
  report.targetId = targetId ∧ report.status = .open_

def isStale (time : Int) (report : Report) : Bool :=
  report.status = .open_ ∧ report.createdAt < time

/-- `SET status, escalated_at, updated_at` -/
def escalate (status : ReportStatus) (now : Int) (report : Report) : Report :=
  { report with status, escalatedAt := some now, updatedAt := now }

@[simp] theorem escalate_id (status : ReportStatus) (now : Int) (report : Report) :
    (escalate status now report).id = report.id := rfl

/-- `UPDATE … WHERE target_id = … AND status = 'open' RETURNING id` -/
def escalateTarget (targetId : String) (status : ReportStatus) (now : Int) :
    List Nat × Reports :=
  ((reports.rows.filter (isOpenOn targetId)).map Report.id,
    reports.map (fun r => if isOpenOn targetId r then escalate status now r else r) fun r => by
      split <;> rfl)

/-- `UPDATE … WHERE id = … AND status = 'open' RETURNING *` -/
def escalateReport (id : Nat) (now : Int) : Option Report × Reports :=
  match reports.find? id with
  | some report =>
    if report.status = .open_ then
      (some (escalate .escalated now report),
        reports.modify id (escalate .escalated now) (escalate_id .escalated now))
    else (none, reports)
  | none => (none, reports)

end Reports

inductive ReportEvent where
  | created (reportId : Nat) (reporterId : Option String) (targetId : String)
      (targetType : TargetType) (reason : String) (source : Option ReportSource)
  | escalated (reportId : Nat) (targetId : String) (previousStatus : ReportStatus)
      (previousUpdatedAt : Int)
  deriving DecidableEq

structure System where
  now : Int
  reports : Reports
  emitted : List ReportEvent

inductive Call where
  | now
  | insertReport (input : NewReport)
  | findFiled (targetId reason : String) (time : Int)
  | countSince (targetId : String) (time : Int)
  | findOpen (targetId : String)
  | findStale (time : Int)
  | escalateTarget (targetId : String) (status : ReportStatus) (now : Int)
  | escalateReport (id : Nat) (now : Int)
  | emit (event : ReportEvent)

abbrev Call.Answer : Call → Type
  | .now => Int
  | .insertReport _ => Report
  | .findFiled _ _ _ => Bool
  | .countSince _ _ => Nat
  | .findOpen _ | .findStale _ => Selection
  | .escalateTarget _ _ _ => List Nat
  | .escalateReport _ _ => Option Report
  | .emit _ => Unit

/-- What the environment decides at a call: the time that passes, and the order of rows that a
query does not say. -/
structure Choice where
  elapsed : Nat := 0
  rank : Nat → Nat := id

def System.perform (system : System) (rank : Nat → Nat) : (call : Call) → call.Answer × System
  | .now => (system.now, system)
  | .insertReport input =>
    (Reports.newReport input system.now system.reports.next,
      { system with
        reports := system.reports.insert (Reports.newReport input system.now)
          (Reports.newReport_id input system.now) })
  | .findFiled targetId reason time =>
    (system.reports.rows.any fun r => r.targetId = targetId ∧ r.reason = reason ∧
      time < r.createdAt, system)
  | .countSince targetId time => (Reports.countSince system.reports targetId time, system)
  | .findOpen targetId =>
    (Reports.select system.reports (Reports.isOpenOn targetId) (byCreatedAt rank), system)
  | .findStale time =>
    (Reports.select system.reports (Reports.isStale time) (byRank rank), system)
  | .escalateTarget targetId status now =>
    let escalated := Reports.escalateTarget system.reports targetId status now
    (escalated.1, { system with reports := escalated.2 })
  | .escalateReport id now =>
    let escalated := Reports.escalateReport system.reports id now
    (escalated.1, { system with reports := escalated.2 })
  | .emit event => ((), { system with emitted := system.emitted ++ [event] })

/-- Some time passes before the call. -/
def exec (choice : Choice) (system : System) (call : Call) : call.Answer × System :=
  System.perform { system with now := system.now + choice.elapsed } choice.rank call

abbrev Handler (α : Type) : Type := Fallible Call Call.Answer Failure α

@[simp] def call (op : Call) : Handler op.Answer :=
  ExceptT.mk (.call op fun answer => .done (.ok answer))

def AUTO_ESCALATION_REPORT_THRESHOLD : Nat := 3

def AUTO_ESCALATION_WINDOW_MS : Int := 60 * 60 * 1000

def STALE_AFTER_MS : Int := 24 * 60 * 60 * 1000

/-- What a report says of itself when it is announced as escalated. -/
def escalatedEvent (report : Report) : ReportEvent :=
  .escalated report.id report.targetId report.status report.updatedAt

/-- Of what was read, what has been moved is announced. -/
def announce (read : List Report) (escalated : List Nat) : Handler Unit :=
  forM read fun report =>
    if report.id ∈ escalated then call (.emit (escalatedEvent report)) else pure ()

/-- The open reports of a target are read, then moved. -/
def escalateOpen (targetId : String) (status : ReportStatus) : Handler Unit := do
  let pending ← call (.findOpen targetId)
  if pending.rows = [] then return
  else
    let now ← call .now
    let escalated ← call (.escalateTarget targetId status now)
    announce pending.rows escalated

namespace ModerationService

def checkAutoEscalation (targetId : String) : Handler Unit := do
  let now ← call .now
  let total ← call (.countSince targetId (now - AUTO_ESCALATION_WINDOW_MS))
  if total < AUTO_ESCALATION_REPORT_THRESHOLD then return
  else escalateOpen targetId .inReview

structure CreateReportDto where
  targetId : String
  targetType : TargetType
  reason : String
  description : Option String
  deriving DecidableEq

/-- `input.description || null` -/
def orNull (text : Option String) : Option String := text.filter (· ≠ "")

def createReport (reporterId : String) (input : CreateReportDto) : Handler Report := do
  let report ← call (.insertReport
    { reporterId := some reporterId, targetId := input.targetId, targetType := input.targetType
      reason := input.reason, description := orNull input.description, source := .user })
  call (.emit (.created report.id (some reporterId) input.targetId input.targetType input.reason
    none))
  checkAutoEscalation input.targetId
  return report

/-- Compare and set: what an administrator has decided in the meantime stays. -/
def escalateStale (escalatedCount : Nat) (report : Report) : Handler Nat := do
  let now ← call .now
  match ← call (.escalateReport report.id now) with
  | some _ => do
    call (.emit (escalatedEvent report))
    return escalatedCount + 1
  | none => return escalatedCount

def autoEscalateReports : Handler Nat := do
  let now ← call .now
  let openReports ← call (.findStale (now - STALE_AFTER_MS))
  openReports.rows.foldlM escalateStale 0

end ModerationService

namespace ContentModerationService

def AUTO_REPORT_SYSTEM_MARKER : String := "Content moderation"

def AUTO_REPORT_DEDUPE_WINDOW_MS : Int := 60 * 60 * 1000

structure RuleViolation where
  reason : String
  detail : String
  autoEscalate : Bool
  deriving DecidableEq

structure AutoReportInput where
  targetId : String
  targetType : TargetType
  violation : RuleViolation
  deriving DecidableEq

structure AutoReportOutcome where
  filed : Bool
  reason : String
  violation : RuleViolation
  deriving DecidableEq

def autoReport (input : AutoReportInput) : NewReport where
  reporterId := none
  targetId := input.targetId
  targetType := input.targetType
  reason := input.violation.reason
  description := some s!"{AUTO_REPORT_SYSTEM_MARKER}: {input.violation.detail}"
  source := .auto

def fileReport (input : AutoReportInput) : Handler AutoReportOutcome := do
  let now ← call .now
  if ← call (.findFiled input.targetId input.violation.reason
      (now - AUTO_REPORT_DEDUPE_WINDOW_MS)) then
    return ⟨false, "duplicate", input.violation⟩
  else
    let report ← call (.insertReport (autoReport input))
    call (.emit (.created report.id none input.targetId input.targetType input.violation.reason
      (some .auto)))
    (if input.violation.autoEscalate then escalateOpen input.targetId .escalated else pure ())
    return ⟨true, input.violation.reason, input.violation⟩

end ContentModerationService

/-- The operations that file reports and move them. -/
inductive Task where
  | createReport (reporterId : String) (input : ModerationService.CreateReportDto)
  | fileReport (input : ContentModerationService.AutoReportInput)
  | checkAutoEscalation (targetId : String)
  | autoEscalateReports
  deriving DecidableEq

def Task.handler : Task → Handler Unit
  | .createReport reporterId input => do
    let _ ← ModerationService.createReport reporterId input
    return
  | .fileReport input => do
    let _ ← ContentModerationService.fileReport input
    return
  | .checkAutoEscalation targetId => ModerationService.checkAutoEscalation targetId
  | .autoEscalateReports => do
    let _ ← ModerationService.autoEscalateReports
    return

/-- The operations at hand, none of them begun. -/
def pool (system : System) (tasks : List Task) :
    Pool System Call Call.Answer (Except Failure Unit) :=
  ⟨system, tasks.map fun task => task.handler.run⟩

end Moderation
