import Hakawi.Moderation.Reports
import Mathlib.Algebra.Order.BigOperators.Group.List

/-!
# Every escalation announced once

An operation may only announce what it has itself moved and what it had read
before. The notes of an operation keep the three lists apart; the books say that
each report is moved by one operation, and announced by that one. Nothing is left
unannounced as long as no report has come between the reading and the moving.
-/

namespace Moderation

open Common Store Effects

structure Notes where
  /-- The reports it has read as open. -/
  read : List Nat
  /-- The reports its statements have moved. -/
  moved : List Nat
  /-- The reports it has announced. -/
  announced : List Nat
  deriving DecidableEq

namespace Notes

def fresh : Notes := ⟨[], [], []⟩

def allowed (notes : Notes) : Call → Prop
  | .findOpen _ | .findStale _ => notes.moved = []
  | .escalateTarget _ status _ => status ≠ .open_
  | .escalateReport id _ => id ∈ notes.read
  | .emit (.escalated id _ _ _) => id ∈ notes.moved ∧ id ∉ notes.announced
  | _ => True

def next (notes : Notes) : (call : Call) → call.Answer → Notes
  | .findOpen _, found | .findStale _, found =>
    { notes with read := found.rows.map Report.id }
  | .escalateTarget _ _ _, ids => { notes with moved := notes.moved ++ ids }
  | .escalateReport id _, some _ => { notes with moved := notes.moved ++ [id] }
  | .emit (.escalated id _ _ _), _ => { notes with announced := notes.announced ++ [id] }
  | _, _ => notes

def protocol : Protocol Call Call.Answer Notes := ⟨allowed, next⟩

@[simp] theorem protocol_spec (call : Call) (Q : call.Answer → Notes → Prop) (notes : Notes) :
    protocol.spec call Q notes = (notes.allowed call ∧ ∀ r, Q r (notes.next call r)) := rfl

/-- Of what was read, all that was moved is announced. -/
def Told (notes : Notes) : Prop := ∀ id ∈ notes.moved, id ∈ notes.read → id ∈ notes.announced

end Notes

open Notes

section Rules
variable {α β : Type} {Q : Except Failure β → Notes → Prop} {notes : Notes}

theorem wpE_call_next {op : Call} {next : op.Answer → Handler β} (allowed : notes.allowed op)
    (goes : ∀ r, wpE protocol.spec (next r) Q (notes.next op r)) :
    wpE protocol.spec (call op >>= next) Q notes := by
  simp only [wpE_bind, call, wpE_mk_call, Program.wp_done, protocol_spec]
  exact ⟨allowed, goes⟩

theorem wpE_last {op : Call} {Q : Except Failure op.Answer → Notes → Prop}
    (allowed : notes.allowed op) (goes : ∀ r, Q (.ok r) (notes.next op r)) :
    wpE protocol.spec (call op) Q notes := by
  simp only [call, wpE_mk_call, Program.wp_done, protocol_spec]
  exact ⟨allowed, goes⟩

end Rules

section Operations

/-- The loop announces what it finds among the moved, once each. -/
theorem announce_tells {rows : List Report} (unique : (rows.map Report.id).Nodup)
    (escalated : List Nat) {notes : Notes} (moved : ∀ id ∈ escalated, id ∈ notes.moved)
    (unsaid : ∀ report ∈ rows, report.id ∉ notes.announced) :
    wpE protocol.spec (announce rows escalated) (fun _ after => after =
      { notes with announced :=
        notes.announced ++ (rows.map Report.id).filter (· ∈ escalated) }) notes := by
  induction rows generalizing notes with
  | nil =>
    change notes = _
    simp
  | cons report rest ih =>
    obtain ⟨new, unique⟩ := List.nodup_cons.mp unique
    have later : ∀ r ∈ rest, r.id ∉ notes.announced :=
      fun r member => unsaid r (List.mem_cons_of_mem _ member)
    rw [announce, List.forM_cons, wpE_bind, wpE_ite]
    split
    · rename_i hit
      refine wpE_last ⟨moved _ hit, unsaid report List.mem_cons_self⟩ fun _ => ?_
      refine wpE_mono protocol.spec_monotone (fun _ after same => ?_)
        (ih unique moved fun r member => ?_)
      · rw [same]
        simp [Notes.next, escalatedEvent, hit]
      · simp only [Notes.next, escalatedEvent, List.mem_append, List.mem_singleton, not_or]
        refine ⟨later r member, fun same => new ?_⟩
        exact same ▸ List.mem_map_of_mem member
    · rename_i miss
      rw [wpE_pure]
      refine wpE_mono protocol.spec_monotone (fun _ after same => ?_) (ih unique moved later)
      rw [same]
      simp [miss]

/-- Both checks: what is open is read, moved, and announced. -/
theorem escalateOpen_tells {notes : Notes} (begun : notes.moved = []) (none : notes.announced = [])
    (targetId : String) {status : ReportStatus} (moves : status ≠ .open_) :
    wpE protocol.spec (escalateOpen targetId status) (fun _ after => after.Told) notes := by
  refine wpE_call_next begun fun pending => ?_
  rw [wpE_ite]
  split
  · change Told _
    intro id moved
    simp only [Notes.next, begun] at moved
    cases moved
  · refine wpE_call_next trivial fun now => wpE_call_next moves fun escalated => ?_
    refine wpE_mono protocol.spec_monotone (fun _ after same => ?_)
      (announce_tells pending.unique escalated (fun id member => ?_) fun report _ => ?_)
    · rw [same]
      intro id moved read
      simp only [Notes.next, begun, List.nil_append] at moved read
      simp only [Notes.next, List.mem_append, List.mem_filter, decide_eq_true_eq]
      exact Or.inr ⟨read, moved⟩
    · simp [Notes.next, member]
    · simp [Notes.next, none]

theorem checkAutoEscalation_tells {notes : Notes} (begun : notes.moved = [])
    (none : notes.announced = []) (targetId : String) :
    wpE protocol.spec (ModerationService.checkAutoEscalation targetId)
      (fun _ after => after.Told) notes := by
  refine wpE_call_next trivial fun now => wpE_call_next trivial fun total => ?_
  rw [wpE_ite]
  split
  · intro id moved
    simp only [Notes.next, begun] at moved
    cases moved
  · exact escalateOpen_tells begun none targetId (by decide)

/-- The sweep moves and announces one report after the other. -/
theorem escalateStale_tells {rows : List Report} (unique : (rows.map Report.id).Nodup)
    {notes : Notes} (read : ∀ report ∈ rows, report.id ∈ notes.read)
    (told : notes.announced = notes.moved) (unsaid : ∀ report ∈ rows, report.id ∉ notes.moved)
    (count : Nat) :
    wpE protocol.spec (rows.foldlM ModerationService.escalateStale count)
      (fun _ after => after.announced = after.moved) notes := by
  induction rows generalizing notes count with
  | nil => exact told
  | cons report rest ih =>
    obtain ⟨new, unique⟩ := List.nodup_cons.mp unique
    have here := read report List.mem_cons_self
    have unsaid' := unsaid report List.mem_cons_self
    have later : ∀ r ∈ rest, r.id ∈ notes.read :=
      fun r member => read r (List.mem_cons_of_mem _ member)
    have later' : ∀ r ∈ rest, r.id ∉ notes.moved :=
      fun r member => unsaid r (List.mem_cons_of_mem _ member)
    rw [List.foldlM_cons, wpE_bind]
    refine wpE_call_next trivial fun now => wpE_call_next here fun updated => ?_
    cases updated with
    | none => exact ih unique later told later' count
    | some row =>
      refine wpE_call_next ⟨?_, ?_⟩ fun _ => ?_
      · simp [Notes.next]
      · simp only [Notes.next]
        rwa [told]
      · rw [wpE_pure]
        refine ih unique ?_ ?_ (fun r member => ?_) (count + 1)
        · exact later
        · simp [Notes.next, escalatedEvent, told]
        · simp only [Notes.next, escalatedEvent, List.mem_append, List.mem_singleton, not_or]
          refine ⟨later' r member, fun same => new ?_⟩
          exact same ▸ List.mem_map_of_mem member

/-- An operation whose result is thrown away. -/
theorem wpE_discarded {α : Type} {handler : Handler α} {q : Notes → Prop} {notes : Notes}
    (ends : wpE protocol.spec handler (fun _ after => q after) notes) :
    wpE protocol.spec (do let _ ← handler; return) (fun _ after => q after) notes := by
  rw [wpE_bind]
  refine wpE_mono protocol.spec_monotone (fun result after holds => ?_) ends
  cases result with
  | error e => exact holds
  | ok a => exact holds

theorem handler_tells (task : Task) :
    protocol.Reaches (fun _ notes => notes.Told) .fresh task.handler.run := by
  change wpE protocol.spec task.handler (fun _ notes => notes.Told) .fresh
  cases task with
  | createReport reporterId input =>
    refine wpE_discarded ?_
    refine wpE_call_next trivial fun report => wpE_call_next trivial fun _ => ?_
    rw [wpE_bind]
    refine wpE_mono protocol.spec_monotone (fun result after told => ?_)
      (checkAutoEscalation_tells rfl rfl input.targetId)
    cases result with
    | error e => exact told
    | ok _ => exact told
  | fileReport input =>
    refine wpE_discarded ?_
    refine wpE_call_next trivial fun now => wpE_call_next trivial fun filed => ?_
    rw [wpE_ite]
    split
    · intro id moved
      cases moved
    · refine wpE_call_next trivial fun report => wpE_call_next trivial fun _ => ?_
      rw [wpE_bind, wpE_ite]
      split
      · refine wpE_mono protocol.spec_monotone (fun result after told => ?_)
          (escalateOpen_tells rfl rfl input.targetId (by decide))
        cases result with
        | error e => exact told
        | ok _ => exact told
      · intro id moved
        cases moved
  | checkAutoEscalation targetId => exact checkAutoEscalation_tells rfl rfl targetId
  | autoEscalateReports =>
    refine wpE_discarded ?_
    refine wpE_call_next trivial fun now => wpE_call_next rfl fun found => ?_
    refine wpE_mono protocol.spec_monotone (fun _ after told => ?_)
      (escalateStale_tells found.unique (fun report member => ?_) rfl (fun _ _ => ?_) 0)
    · intro id moved _
      rwa [told]
    · exact List.mem_map_of_mem member
    · simp [Notes.next, fresh]

end Operations

/-- The operations before they begin. -/
def begun (tasks : List Task) : List Notes := tasks.map fun _ => .fresh

theorem pool_reaches (system : System) (tasks : List Task) :
    List.Forall₂ (protocol.Reaches fun _ notes => notes.Told) (begun tasks)
      (pool system tasks).threads := by
  induction tasks with
  | nil => exact .nil
  | cons task rest ih => exact .cons (handler_tells task) ih

theorem pool_follows (system : System) (tasks : List Task) :
    Pool.Follow protocol (begun tasks) (pool system tasks) :=
  (pool_reaches system tasks).imp fun _ _ reaches => reaches.follows

/-- Every report that a statement moves is one that its operation had read. -/
def Covered (_ : Choice) (system : System) (notes : Notes) : Call → Prop
  | .escalateTarget targetId _ _ => ∀ report ∈ system.reports.rows,
      Reports.isOpenOn targetId report → report.id ∈ notes.read
  | _ => True

instance (choice : Choice) (system : System) (notes : Notes) (op : Call) :
    Decidable (Covered choice system notes op) := by
  cases op <;> unfold Covered <;> infer_instance

/-- The report is there and no longer open. -/
def Reports.hasLeft (reports : Reports) (id : Nat) : Bool :=
  (reports.find? id).any fun report => report.status ≠ .open_

def ReportEvent.isEscalation (reportId : Nat) : ReportEvent → Bool
  | .escalated id _ _ _ => id = reportId
  | _ => false

namespace Reports
variable (reports : Reports)

theorem hasLeft_insert (input : NewReport) (now : Int) (id : Nat) :
    hasLeft (reports.insert (newReport input now) (newReport_id input now)) id =
      hasLeft reports id := by
  rw [hasLeft, hasLeft, Table.find?_insert]
  split
  · rename_i same
    rw [same, Table.find?_next]
    rfl
  · rfl

/-- What the statement returns is what it has moved. -/
theorem hasLeft_escalateTarget (targetId : String) {status : ReportStatus}
    (moves : status ≠ .open_) (now : Int) (id : Nat) :
    (escalateTarget reports targetId status now).1.count id + (hasLeft reports id).toNat =
      (hasLeft (escalateTarget reports targetId status now).2 id).toNat := by
  simp only [escalateTarget, hasLeft, Table.count_keys, Table.find?_map]
  obtain absent | ⟨report, found⟩ := Option.eq_none_or_eq_some (reports.find? id)
  · simp [absent]
  · by_cases isOpen : report.status = .open_
    · by_cases hit : isOpenOn targetId report = true
      · simp [found, hit, isOpen, escalate, moves]
      · simp [found, hit, isOpen]
    · have miss : isOpenOn targetId report = false := by simp [isOpenOn, isOpen]
      simp [found, miss, isOpen]

theorem hasLeft_escalateReport (id : Nat) (now : Int) (other : Nat) :
    ((escalateReport reports id now).1.isSome && other = id).toNat +
      (hasLeft reports other).toNat =
        (hasLeft (escalateReport reports id now).2 other).toNat := by
  simp only [escalateReport, hasLeft]
  obtain absent | ⟨report, found⟩ := Option.eq_none_or_eq_some (reports.find? id)
  · simp [absent]
  · by_cases isOpen : report.status = .open_
    · simp only [found, isOpen, if_true, Table.find?_modify]
      by_cases same : other = id
      · subst same
        simp [found, isOpen, escalate]
      · simp [same]
    · simp [found, isOpen]

end Reports

/-- No report is announced twice by an operation, and none that it has not moved. -/
def Notes.Faithful (notes : Notes) : Prop :=
  notes.announced.Nodup ∧ ∀ id ∈ notes.announced, id ∈ notes.moved

/-- Reports that have left are those the operations have moved; events are those they have
announced. -/
structure Books (was : Reports) (system : System) (memory : List Notes) : Prop where
  moved : ∀ id, (memory.map fun n => (n.moved.count id : Int)).sum +
    (Reports.hasLeft was id).toNat = (Reports.hasLeft system.reports id).toNat
  announced : ∀ id, (memory.map fun n => (n.announced.count id : Int)).sum =
    system.emitted.countP (ReportEvent.isEscalation id)
  faithful : ∀ notes ∈ memory, notes.Faithful

section Steps
variable {was : Reports} {system after : System} {memory : List Notes} {i : Nat}
  {notes notes' : Notes}

theorem Books.step (books : Books was system memory) (remembers : memory[i]? = some notes)
    (moved : ∀ id, (notes'.moved.count id : Int) + (Reports.hasLeft system.reports id).toNat =
      notes.moved.count id + (Reports.hasLeft after.reports id).toNat)
    (announced : ∀ id, (notes'.announced.count id : Int) +
      system.emitted.countP (ReportEvent.isEscalation id) =
        notes.announced.count id + after.emitted.countP (ReportEvent.isEscalation id))
    (faithful : notes'.Faithful) : Books was after (memory.set i notes') := by
  refine ⟨fun id => ?_, fun id => ?_, Pool.forall_mem_set books.faithful faithful⟩
  · have before := books.moved id
    have now := moved id
    rw [Pool.sum_map_set _ remembers]
    omega
  · have before := books.announced id
    have now := announced id
    rw [Pool.sum_map_set _ remembers]
    omega

/-- A call that neither moves nor announces. -/
theorem Books.keep (books : Books was system memory) (remembers : memory[i]? = some notes)
    (moved : notes'.moved = notes.moved) (announced : notes'.announced = notes.announced)
    (left : ∀ id, Reports.hasLeft after.reports id = Reports.hasLeft system.reports id)
    (emitted : ∀ id, after.emitted.countP (ReportEvent.isEscalation id) =
      system.emitted.countP (ReportEvent.isEscalation id)) :
    Books was after (memory.set i notes') := by
  refine books.step remembers (fun id => ?_) (fun id => ?_) ?_
  · rw [moved, left]
  · rw [announced, emitted]
  · rw [Notes.Faithful, moved, announced]
    exact books.faithful notes (List.mem_of_getElem? remembers)

theorem books_preserved (was : Reports) :
    Pool.Preserves exec protocol (fun _ _ _ _ => True) (Books was) := by
  intro choice system memory i notes op remembers books allowed _
  have faithful := books.faithful notes (List.mem_of_getElem? remembers)
  cases op with
  | now | findFiled _ _ _ | countSince _ _ | findOpen _ | findStale _ =>
    exact books.keep remembers rfl rfl (fun _ => rfl) fun _ => rfl
  | insertReport input =>
    refine books.keep remembers rfl rfl (fun id => ?_) fun _ => rfl
    exact Reports.hasLeft_insert _ _ _ _
  | escalateTarget targetId status now =>
    refine books.step remembers (fun id => ?_) (fun _ => rfl)
      ⟨faithful.1, fun id said => List.mem_append_left _ (faithful.2 id said)⟩
    have left := Reports.hasLeft_escalateTarget system.reports targetId allowed now id
    simp only [exec, System.perform, protocol, Notes.next, List.count_append]
    omega
  | escalateReport id now =>
    have left := Reports.hasLeft_escalateReport system.reports id now
    simp only [exec, System.perform, protocol]
    cases updated : (Reports.escalateReport system.reports id now).1 with
    | none =>
      refine books.keep remembers rfl rfl (fun other => ?_) fun _ => rfl
      have same := left other
      simp only [updated, Option.isSome_none, Bool.false_and, Bool.toNat_false] at same
      change Reports.hasLeft (Reports.escalateReport system.reports id now).2 other = _
      cases before : Reports.hasLeft system.reports other <;>
        cases later : Reports.hasLeft (Reports.escalateReport system.reports id now).2 other <;>
        simp_all
    | some row =>
      refine books.step remembers (fun other => ?_) (fun _ => rfl)
        ⟨faithful.1, fun said member => List.mem_append_left _ (faithful.2 said member)⟩
      have same := left other
      simp only [updated, Option.isSome_some, Bool.true_and] at same
      simp only [Notes.next, List.count_append, List.count_singleton]
      by_cases hit : other = id <;> simp_all <;> omega
  | emit event =>
    cases event with
    | created =>
      refine books.keep remembers rfl rfl (fun _ => rfl) fun id => ?_
      simp [exec, System.perform, ReportEvent.isEscalation]
    | escalated id targetId status updatedAt =>
      obtain ⟨moved, unsaid⟩ := allowed
      refine books.step remembers (fun _ => rfl) (fun other => ?_) ⟨?_, fun said member => ?_⟩
      · simp only [exec, System.perform, protocol, Notes.next, List.count_append,
          List.countP_append, List.count_singleton, List.countP_singleton,
          ReportEvent.isEscalation]
        by_cases hit : id = other <;> simp [hit]
        omega
      · exact List.nodup_append.mpr ⟨faithful.1, List.nodup_singleton _, fun a ha b hb => by
          rw [List.mem_singleton.mp hb]
          exact fun same => unsaid (same ▸ ha)⟩
      · rcases List.mem_append.mp member with old | new
        · exact faithful.2 said old
        · rw [List.mem_singleton.mp new]
          exact moved

/-- Where every statement is covered, an operation has read what it has moved. -/
theorem read_preserved : Pool.Preserves exec protocol Covered
    fun _ memory => ∀ notes ∈ memory, ∀ id ∈ notes.moved, id ∈ notes.read := by
  intro choice system memory i notes op remembers known allowed covered
  have here := known notes (List.mem_of_getElem? remembers)
  refine Pool.forall_mem_set known ?_
  cases op with
  | now | insertReport _ | findFiled _ _ _ | countSince _ _ => exact here
  | findOpen _ | findStale _ =>
    intro id moved
    have none : notes.moved = [] := allowed
    simp only [protocol, Notes.next, none] at moved
    cases moved
  | escalateTarget targetId status now =>
    intro id moved
    rcases List.mem_append.mp moved with old | new
    · exact here id old
    · obtain ⟨report, member, rfl⟩ := List.mem_map.mp new
      obtain ⟨member, hit⟩ := List.mem_filter.mp member
      exact covered report member hit
  | escalateReport id now =>
    simp only [exec, System.perform, protocol]
    cases (Reports.escalateReport system.reports id now).1 with
    | none => exact here
    | some row =>
      intro said moved
      rcases List.mem_append.mp moved with old | new
      · exact here said old
      · rw [List.mem_singleton.mp new]
        exact allowed
  | emit event =>
    cases event <;> exact here

end Steps

/-- Small weights, each of them there when the other is, add up to the same. -/
theorem sum_eq_of_small {α : Type} (said moved : α → Int) {items : List α}
    (each : ∀ item ∈ items, 0 ≤ said item ∧ said item ≤ moved item ∧
      (0 < moved item → 0 < said item))
    (small : (items.map moved).sum ≤ 1) : (items.map said).sum = (items.map moved).sum := by
  induction items with
  | nil => rfl
  | cons item rest ih =>
    obtain ⟨positive, le, both⟩ := each item List.mem_cons_self
    have later := fun item member => each item (List.mem_cons_of_mem _ member)
    have rest_nonneg : 0 ≤ (rest.map moved).sum := by
      refine List.sum_nonneg fun weight member => ?_
      obtain ⟨other, known, rfl⟩ := List.mem_map.mp member
      have := later other known
      omega
    rw [List.map_cons, List.sum_cons] at small
    have same := ih later (by omega)
    rw [List.map_cons, List.sum_cons, List.map_cons, List.sum_cons, same]
    omega

theorem Notes.Faithful.count_le {notes : Notes} (faithful : notes.Faithful) (id : Nat) :
    notes.announced.count id ≤ notes.moved.count id := by
  rw [faithful.1.count]
  split
  · rename_i said
    exact List.count_pos_iff.mpr (faithful.2 id said)
  · exact Nat.zero_le _

theorem books_begun {system : System} (silent : system.emitted = []) (tasks : List Task) :
    Books system.reports system (begun tasks) := by
  have fresh : ∀ weigh : Notes → Int, weigh .fresh = 0 → ((begun tasks).map weigh).sum = 0 := by
    intro weigh weightless
    induction tasks with
    | nil => rfl
    | cons task rest ih =>
      have later : ((begun rest).map weigh).sum = 0 := ih
      simp only [begun, List.map_cons, List.sum_cons, weightless] at later ⊢
      omega
  refine ⟨fun id => ?_, fun id => ?_, fun notes member => ?_⟩
  · rw [fresh _ rfl]
    omega
  · rw [fresh _ rfl, silent]
    rfl
  · obtain ⟨task, -, rfl⟩ := List.mem_map.mp member
    exact ⟨List.nodup_nil, fun id said => by cases said⟩

/-- No report is ever announced twice, nor by an operation that has not moved it. And where every
statement is covered, in the end the reports announced are those that are no longer open. -/
theorem escalations_announced {system : System} (silent : system.emitted = [])
    (tasks : List Task) {schedule : List (Nat × Choice)}
    (covered : Pool.Meets exec protocol Covered schedule (begun tasks) (pool system tasks)) :
    let after := (pool system tasks).run exec schedule
    let memory := Pool.recallAll exec protocol (begun tasks) (pool system tasks) schedule
    (∀ notes ∈ memory, notes.announced.Nodup ∧ ∀ id ∈ notes.announced, id ∈ notes.moved) ∧
    (∀ id, after.state.emitted.countP (ReportEvent.isEscalation id) ≤ 1) ∧
    (after.Finished → ∀ id, after.state.emitted.countP (ReportEvent.isEscalation id) +
      (Reports.hasLeft system.reports id).toNat =
        (Reports.hasLeft after.state.reports id).toNat) := by
  intro after memory
  have books : Books system.reports after.state memory :=
    (Pool.run_invariant_always (books_preserved system.reports) (books_begun silent tasks)
      (pool_follows system tasks) schedule).1
  have le : ∀ id, ∀ n ∈ memory, (n.announced.count id : Int) ≤ n.moved.count id :=
    fun id n member => Int.ofNat_le.mpr ((books.faithful n member).count_le id)
  have small : ∀ id, (memory.map fun n => (n.moved.count id : Int)).sum ≤ 1 := by
    intro id
    have moved := books.moved id
    have one := Bool.toNat_le (Reports.hasLeft after.state.reports id)
    omega
  refine ⟨books.faithful, fun id => ?_, fun finished id => ?_⟩
  · have announced := books.announced id
    have fewer := List.sum_le_sum (le id)
    have few := small id
    omega
  · have none_moved : ∀ notes ∈ begun tasks, ∀ id ∈ notes.moved, id ∈ notes.read := by
      intro notes member id moved
      obtain ⟨task, -, rfl⟩ := List.mem_map.mp member
      cases moved
    have read := (Pool.run_invariant read_preserved none_moved (pool_follows system tasks)
      covered).1
    have told := Pool.post_of_finished
      (Pool.run_reaches (pool_reaches system tasks) schedule) finished
    have both : ∀ n ∈ memory, 0 < (n.moved.count id : Int) → 0 < (n.announced.count id : Int) := by
      intro n member moved
      have known : id ∈ n.moved := List.count_pos_iff.mp (by omega)
      have said := told n member id known (read n member id known)
      exact Int.natCast_pos.mpr (List.count_pos_iff.mpr said)
    have same := sum_eq_of_small (fun n : Notes => (n.announced.count id : Int))
      (fun n => (n.moved.count id : Int))
      (fun n member => ⟨Int.natCast_nonneg _, le id n member, both n member⟩) (small id)
    have moved := books.moved id
    have announced := books.announced id
    omega

def spam : ModerationService.CreateReportDto := ⟨"story", .story, "spam", none⟩

/-- Two reports of a story are open. -/
def twoFiled : System where
  now := 0
  reports := (List.range 2).foldl
    (fun t _ => t.insert (Reports.newReport ⟨some "reader", "story", .story, "spam", none, .user⟩ 0)
      (Reports.newReport_id _ 0)) .empty
  emitted := []

/-- The turns of some threads, a second before each. -/
def turns (order : List Nat) : List (Nat × Choice) :=
  order.map fun thread => (thread, { elapsed := 1000 })

theorem escalations_announced_together :
    let after := (pool twoFiled [.createReport "a" spam, .createReport "b" spam]).run exec
      (turns [0, 1, 0, 1, 0, 0, 0, 0, 1, 1, 1, 0, 0, 0, 0, 0, 1, 1])
    after.Finished ∧ ∀ id, after.state.emitted.countP (ReportEvent.isEscalation id) +
      (Reports.hasLeft twoFiled.reports id).toNat =
        (Reports.hasLeft after.state.reports id).toNat := by
  intro after
  have finished : after.Finished := by decide
  exact ⟨finished, (escalations_announced rfl [.createReport "a" spam, .createReport "b" spam]
    (by decide)).2.2 finished⟩

/-- The check of one report has read what is open, then another report is filed: it is moved with
the others, and the check that follows it finds nothing open. Nothing announces it. -/
theorem escalation_unannounced :
    let after := (pool twoFiled [.createReport "a" spam, .createReport "b" spam]).run exec
      (turns [0, 0, 0, 0, 0, 1, 1, 0, 0, 0, 0, 0, 1, 1, 1])
    after.Finished ∧ Reports.hasLeft twoFiled.reports 3 = false ∧
      Reports.hasLeft after.state.reports 3 = true ∧
        after.state.emitted.countP (ReportEvent.isEscalation 3) = 0 := by
  decide

end Moderation
