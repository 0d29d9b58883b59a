import Hakawi.Publishers.Upgrades

/-!
# Reviews of one application

Whether an application is pending is read before the decision is written, and the decision is
written whatever the application is by then. Officers who review an application at once decide it
once as long as every decision is written while the application is pending.
-/

namespace Publishers
open Common Store Effects
open Admin (Uuids)

structure Review where
  adminId : String
  applicationId : String
  dto : ReviewPublisherApplicationDto
  deriving DecidableEq

/-- A review that is under way, or has ended. -/
abbrev Thread : Type := Program Call Call.Answer (Except Exception PublisherApplication)

namespace Review

def run (review : Review) : Thread :=
  (PublishersService.reviewApplication review.adminId review.applicationId review.dto).run

/-- Who rejects says why. -/
def Reasoned (review : Review) : Prop :=
  ¬ (review.dto.status = .rejected ∧ PublishersService.givenReason review.dto = none)

instance (review : Review) : Decidable review.Reasoned := inferInstanceAs (Decidable (¬ _))

def reason (review : Review) : Option String :=
  if review.dto.status = .rejected then PublishersService.givenReason review.dto else none

def changes (review : Review) (reviewedAt : Int) : ApplicationChanges :=
  { status := review.dto.status.status, reviewedBy := review.adminId, reviewedAt
    rejectionReason := review.reason }

/-- What is announced of the decision. -/
def events (review : Review) (applicationId userId : String) : List Event :=
  (if review.dto.status = .approved then [.userUpgraded userId "reader" "publisher"] else []) ++
    [.applicationReviewed applicationId userId review.dto.status review.adminId]

/-- A user decides, and says why. -/
def Valid (uuids : Uuids) (world : World) (review : Review) : Prop :=
  review.Reasoned ∧ (world.reference uuids review.adminId).isOk = true

instance (uuids : Uuids) (world : World) (review : Review) :
    Decidable (review.Valid uuids world) := inferInstanceAs (Decidable (_ ∧ _))

/-- The application as the review leaves it. -/
structure Decides (uuids : Uuids) (review : Review) (application updated : PublisherApplication) :
    Prop where
  same : updated.id = application.id ∧ updated.userId = application.userId
  status : updated.status = review.dto.status.status
  reviewedBy : updated.reviewedBy = uuids.read review.adminId
  rejectionReason : updated.rejectionReason = review.reason

theorem Decides.not_pending {uuids : Uuids} {review : Review}
    {application updated : PublisherApplication}
    (decides : review.Decides uuids application updated) : updated.status ≠ .pending := by
  rw [decides.status]
  cases review.dto.status <;> decide

end Review

/-- How far a review is, and the events that it has still to announce. -/
inductive Phase where
  | begun
  | found (application : PublisherApplication)
  | timed (application : PublisherApplication) (reviewedAt : Int)
  | decided (updated : PublisherApplication) (left : List Event)
  | refused
  | broken

structure Progress where
  review : Review
  phase : Phase

namespace Progress

def after (g : Progress) : (op : Call) → op.Answer → Phase
  | .findApplicationById _, .ok (some application) =>
    if application.status = .pending then .found application else .refused
  | .now, .ok reviewedAt => match g.phase with
    | .found application =>
      if g.review.Reasoned then .timed application reviewedAt else .refused
    | _ => .refused
  | .updateApplication _ _, .ok (some updated) => match g.phase with
    | .timed application _ => .decided updated (g.review.events updated.id application.userId)
    | _ => .refused
  | .emit _, .ok _ => match g.phase with
    | .decided updated left => .decided updated left.tail
    | _ => .broken
  | .emit _, .error _ => .broken
  | _, _ => .refused

end Progress

/-- Look, tell the time, write, and announce. -/
def deciding : Protocol Call Call.Answer Progress where
  allowed g op := match g.phase with
    | .begun => op = .findApplicationById g.review.applicationId
    | .found _ => op = .now
    | .timed _ reviewedAt => g.review.Reasoned ∧
      op = .updateApplication g.review.applicationId (g.review.changes reviewedAt)
    | .decided _ left => ∃ event rest, left = event :: rest ∧ op = .emit event
    | .refused | .broken => False
  next g op answer := { g with phase := g.after op answer }

/-- How a review has ended. -/
def Ended : Except Exception PublisherApplication → Progress → Prop
  | .ok updated, g => g.phase = .decided updated []
  | .error _, g => g.phase = .refused ∨ g.phase = .broken

section Following
variable {g : Progress} {Q : Except Exception PublisherApplication → Progress → Prop}

theorem wpE_deciding {op : Call} {next : op.Value → Method PublisherApplication}
    (allowed : deciding.allowed g op)
    (thrown : ∀ e, Q (.error e) (deciding.next g op (.error e)))
    (goes : ∀ value, wpE deciding.spec (next value) Q (deciding.next g op (.ok value))) :
    wpE deciding.spec (call op >>= next) Q g := by
  rw [wpE_bind]
  refine ⟨allowed, fun answer => ?_⟩
  cases answer with
  | error e => exact thrown e
  | ok value => exact goes value

theorem announces_reaches (review : Review) (updated : PublisherApplication)
    (application : PublisherApplication) :
    wpE deciding.spec (do
      if review.dto.status = .approved then PublishersService.approveApplication application
      call (.emit (.applicationReviewed updated.id application.userId review.dto.status
        review.adminId))
      return updated) Ended
      ⟨review, .decided updated (review.events updated.id application.userId)⟩ := by
  rw [Review.events]
  split
  · refine wpE_deciding ⟨_, _, rfl, rfl⟩ (fun e => Or.inr rfl) fun _ => ?_
    exact wpE_deciding ⟨_, _, rfl, rfl⟩ (fun e => Or.inr rfl) fun _ => rfl
  · exact wpE_deciding ⟨_, _, rfl, rfl⟩ (fun e => Or.inr rfl) fun _ => rfl

theorem review_reaches (review : Review) :
    deciding.Reaches Ended ⟨review, .begun⟩ review.run := by
  change wpE deciding.spec (PublishersService.reviewApplication _ _ _) Ended _
  rw [PublishersService.reviewApplication, wpE_bind, PublishersService.getApplicationById]
  refine wpE_deciding rfl (fun e => Or.inl rfl) fun found => ?_
  cases found with
  | none => exact Or.inl rfl
  | some application =>
    change wpE deciding.spec (if application.status ≠ .pending then _ else _) _
      ⟨review, if application.status = .pending then .found application else .refused⟩
    by_cases pending : application.status = .pending
    · rw [if_neg (not_not.mpr pending), if_pos pending]
      refine wpE_deciding rfl (fun e => Or.inl rfl) fun reviewedAt => ?_
      change wpE deciding.spec _ _
        ⟨review, if review.Reasoned then .timed application reviewedAt else .refused⟩
      by_cases reasoned : review.Reasoned
      · rw [if_pos reasoned, if_neg reasoned, wpE_bind, PublishersRepository.updateApplication]
        refine wpE_deciding ⟨reasoned, rfl⟩ (fun e => Or.inl rfl) fun answer => ?_
        cases answer with
        | none => exact Or.inl rfl
        | some updated => exact announces_reaches review updated application
      · rw [if_neg reasoned, if_pos (not_not.mp reasoned)]
        exact Or.inl rfl
    · rw [if_pos pending, if_neg pending]
      exact Or.inl rfl

end Following

section Deciding
variable (uuids : Uuids) (start : World) (id : String) (application : PublisherApplication)

/-- What a review that has not decided has found is the application as it was submitted, and one
that could have decided is refused only when another has. -/
def Waits (taken : Prop) (g : Progress) : Prop :=
  match g.phase with
  | .begun => True
  | .found other | .timed other _ => other = application
  | .refused => g.review.Valid uuids start → taken
  | .decided _ _ | .broken => False

/-- Nobody has decided. -/
structure Undecided (world : World) (memory : List Progress) : Prop where
  row : world.applications.find? id = some application
  events : world.events = start.events
  waits : ∀ g ∈ memory, Waits uuids start application False g

/-- Review `i` has decided, and what is announced is what it has announced so far. -/
structure DecidedBy (i : Nat) (g : Progress) (updated : PublisherApplication) (left : List Event)
    (world : World) (memory : List Progress) : Prop where
  remembers : memory[i]? = some g
  phase : g.phase = .decided updated left
  row : world.applications.find? id = some updated
  decides : g.review.Decides uuids application updated
  events : world.events ++ left =
    start.events ++ g.review.events application.id application.userId
  others : ∀ j g', j ≠ i → memory[j]? = some g' → Waits uuids start application True g'

structure Consistent (world : World) (memory : List Progress) : Prop where
  users : world.auth.users = start.auth.users
  reads : ∀ g ∈ memory, uuids.read g.review.applicationId = some id
  decision : Undecided uuids start id application world memory ∨
    ∃ i g updated left, DecidedBy uuids start id application i g updated left world memory

/-- The call is carried out, and a decision is written while the application is pending. -/
def Timely (choice : Choice) (world : World) (op : Call) : Prop :=
  choice.outcome = .performed ∧ match op with
    | .updateApplication text _ => ∀ id ∈ uuids.read text,
        ∀ application ∈ world.applications.find? id, application.status = .pending
    | _ => True

instance (choice : Choice) (world : World) (op : Call) :
    Decidable (Timely uuids choice world op) := by
  cases op <;> unfold Timely <;> infer_instance

variable {uuids start id application} {choice : Choice} {world : World}

theorem exec_performed {op : Call} (performed : choice.outcome = .performed) :
    exec uuids choice world op = (world.later choice.elapsed).perform uuids choice.random op := by
  rw [exec, performed]
  cases op.mayFail <;> rfl

theorem reference_congr {before after : World} (same : after.auth.users = before.auth.users)
    (text : String) : after.reference uuids text = before.reference uuids text := by
  simp only [World.reference, findById_congr same]

variable (uuids choice world) in
theorem exec_users (op : Call) : (exec uuids choice world op).2.auth.users = world.auth.users := by
  rcases exec_state uuids choice world op with same | performed
  · rw [same]
    rfl
  · rw [performed]
    rcases perform_applications choice.random op with ⟨users, -⟩ | writes
    · exact users
    · cases writes with
      | inserted data row after status users rows => exact users
      | reviewed text id changes row review after read found status owner users rows => exact users

/-- The application that is looked for is found. -/
theorem find_performed {text : String} (performed : choice.outcome = .performed)
    (read : uuids.read text = some id) :
    exec uuids choice world (.findApplicationById text) =
      (.ok (world.applications.find? id), world.later choice.elapsed) := by
  rw [exec_performed performed, World.perform, World.read, read]
  rfl

/-- Nothing is written for who is no user, else the application is as the review decides it. -/
theorem update_performed {text : String} (changes : ApplicationChanges)
    (performed : choice.outcome = .performed) (read : uuids.read text = some id)
    (found : world.applications.find? id = some application) :
    (∃ e, world.reference uuids changes.reviewedBy = .error e ∧
      exec uuids choice world (.updateApplication text changes) =
        (.error (.drizzle e), world.later choice.elapsed)) ∨
    ∃ reviewedBy updated after, world.reference uuids changes.reviewedBy = .ok reviewedBy ∧
      updated = application.review { changes with reviewedBy }
        (world.later choice.elapsed).auth.clock ∧
      exec uuids choice world (.updateApplication text changes) = (.ok (some updated), after) ∧
      after.applications.find? id = some updated ∧ after.events = world.events ∧
      after.auth.users = world.auth.users := by
  have same : (world.later choice.elapsed).reference uuids changes.reviewedBy =
      world.reference uuids changes.reviewedBy := reference_congr rfl _
  have found' : (world.later choice.elapsed).applications.find? id = some application := found
  rw [exec_performed performed, World.perform, World.updateApplication, World.read, read]
  simp only [bind, Except.bind]
  rw [found', same]
  cases referred : world.reference uuids changes.reviewedBy with
  | error e => exact Or.inl ⟨e, rfl, rfl⟩
  | ok reviewedBy =>
    let review := fun row : PublisherApplication =>
      row.review { changes with reviewedBy } (world.later choice.elapsed).auth.clock
    exact Or.inr ⟨reviewedBy, _, _, rfl, rfl, rfl, Keyed.find?_modify found' review fun _ => rfl,
      rfl, rfl⟩

theorem decides_review {review : Review} {reviewedAt now : Int} {reviewedBy : String}
    (fresh : application.rejectionReason = none)
    (referred : world.reference uuids review.adminId = .ok reviewedBy) :
    review.Decides uuids application
      (application.review { review.changes reviewedAt with reviewedBy } now) := by
  have read : uuids.read review.adminId = some reviewedBy := by
    rw [World.reference, World.read] at referred
    cases read : uuids.read review.adminId with
    | none =>
      rw [read] at referred
      cases referred
    | some admin =>
      simp only [read, bind, Except.bind] at referred
      split at referred
      · cases referred
        rfl
      · cases referred
  refine ⟨⟨rfl, rfl⟩, rfl, read.symm, ?_⟩
  change (review.reason <|> application.rejectionReason) = review.reason
  rw [fresh]
  cases review.reason <;> rfl

variable {i : Nat} {g : Progress} {memory : List Progress}

theorem Waits.of_decided (waits : Waits uuids start application False g) :
    Waits uuids start application True g := by
  obtain ⟨review, phase⟩ := g
  cases phase with
  | refused => exact fun _ => trivial
  | _ => exact waits

/-- A review that looks, or tells the time, goes on waiting. -/
theorem waits_next {taken : Prop} {op : Call} (waits : Waits uuids start application taken g)
    (read : uuids.read g.review.applicationId = some id) (allowed : deciding.allowed g op)
    (performed : choice.outcome = .performed)
    (row : ∃ row, world.applications.find? id = some row ∧
      (row = application ∧ application.status = .pending ∨ row.status ≠ .pending ∧ taken))
    (looks : g.phase = .begun ∨ ∃ other, g.phase = .found other) :
    (exec uuids choice world op).2 = world.later choice.elapsed ∧
      Waits uuids start application taken
        (deciding.next g op (exec uuids choice world op).1) := by
  obtain ⟨review, phase⟩ := g
  obtain ⟨row, present, state⟩ := row
  rcases looks with rfl | ⟨other, rfl⟩
  · cases (allowed : op = .findApplicationById review.applicationId)
    rw [find_performed performed read, present]
    refine ⟨rfl, ?_⟩
    rcases state with ⟨rfl, pending⟩ | ⟨decided, taken⟩
    · have phase : (if row.status = .pending then Phase.found row else .refused) = .found row :=
        if_pos pending
      simp only [Waits, deciding, Progress.after, phase]
    · have phase : (if row.status = .pending then Phase.found row else .refused) = .refused :=
        if_neg decided
      simpa only [Waits, deciding, Progress.after, phase] using fun _ => taken
  · cases (allowed : op = .now)
    cases (waits : other = application)
    rw [exec_performed performed]
    refine ⟨rfl, ?_⟩
    by_cases reasoned : review.Reasoned
    · simp only [World.perform, Waits, deciding, Progress.after, if_pos reasoned]
    · simpa only [World.perform, Waits, deciding, Progress.after, if_neg reasoned] using
        fun valid => absurd valid.1 reasoned

/-- While nobody has decided, a call leaves it so or is the decision. -/
theorem undecided_next (pending : application.status = .pending)
    (fresh : application.rejectionReason = none) {op : Call} (remembers : memory[i]? = some g)
    (users : world.auth.users = start.auth.users)
    (read : uuids.read g.review.applicationId = some id)
    (undecided : Undecided uuids start id application world memory)
    (allowed : deciding.allowed g op) (performed : choice.outcome = .performed) :
    let answer := (exec uuids choice world op).1
    let after := (exec uuids choice world op).2
    let g' := deciding.next g op answer
    Undecided uuids start id application after (memory.set i g') ∨
      ∃ updated left, DecidedBy uuids start id application i g' updated left after
        (memory.set i g') := by
  intro answer after g'
  obtain ⟨lt, same⟩ := List.getElem?_eq_some_iff.mp remembers
  have waits : Waits uuids start application False g :=
    undecided.waits g (same ▸ List.getElem_mem lt)
  have still (left : after = world.later choice.elapsed)
      (waits' : Waits uuids start application False g') :
      Undecided uuids start id application after (memory.set i g') := by
    rw [left]
    exact ⟨undecided.row, undecided.events, Pool.forall_mem_set undecided.waits waits'⟩
  have looking (looks : g.phase = .begun ∨ ∃ other, g.phase = .found other) :
      Undecided uuids start id application after (memory.set i g') := by
    obtain ⟨left, waits'⟩ := waits_next waits read allowed performed
      ⟨application, undecided.row, Or.inl ⟨rfl, pending⟩⟩ looks
    exact still left waits'
  obtain ⟨review, phase⟩ := g
  cases phase with
  | begun => exact Or.inl (looking (Or.inl rfl))
  | found other => exact Or.inl (looking (Or.inr ⟨other, rfl⟩))
  | timed other reviewedAt =>
    cases (waits : other = application)
    obtain ⟨reasoned, rfl⟩ := allowed
    rcases update_performed (review.changes reviewedAt) performed read undecided.row with
      ⟨e, referred, refused⟩ | ⟨reviewedBy, updated, w, referred, made, answered, row, events, -⟩
    · left
      have phase : g' = ⟨review, .refused⟩ := by
        simp only [g', answer, refused]
        rfl
      refine still (by simp only [after, refused]) ?_
      rw [phase]
      intro valid
      have known := valid.2
      rw [← reference_congr users] at known
      rw [show world.reference uuids review.adminId = .error e from referred] at known
      cases known
    · right
      refine ⟨updated, review.events application.id application.userId, ?_⟩
      have decides : review.Decides uuids application updated :=
        made ▸ decides_review fresh referred
      have state : after = w := by simp only [after, answered]
      have phase : g' = ⟨review, .decided updated
          (review.events application.id application.userId)⟩ := by
        simp only [g', answer, answered]
        simp only [deciding, Progress.after, decides.same.1]
      rw [state, phase]
      exact
        { remembers := List.getElem?_set_self lt
          phase := rfl
          row := row
          decides := decides
          events := by rw [events, undecided.events]
          others := by
            intro j other ne present
            rw [List.getElem?_set_ne ne.symm] at present
            exact (undecided.waits other (List.mem_of_getElem? present)).of_decided }
  | decided | broken => exact (waits : False).elim
  | refused => exact (allowed : False).elim

/-- Once a review has decided, it announces its decision, and nobody else decides. -/
theorem decided_next {op : Call} {k : Nat} {winner : Progress} {updated : PublisherApplication}
    {left : List Event} (remembers : memory[i]? = some g)
    (read : uuids.read g.review.applicationId = some id)
    (decided : DecidedBy uuids start id application k winner updated left world memory)
    (allowed : deciding.allowed g op) (timely : Timely uuids choice world op) :
    let answer := (exec uuids choice world op).1
    let after := (exec uuids choice world op).2
    let g' := deciding.next g op answer
    ∃ winner' left', DecidedBy uuids start id application k winner' updated left' after
      (memory.set i g') := by
  intro answer after g'
  obtain ⟨lt, -⟩ := List.getElem?_eq_some_iff.mp remembers
  by_cases own : i = k
  · subst own
    cases remembers.symm.trans decided.remembers
    obtain ⟨review, phase⟩ := g
    cases (decided.phase : phase = .decided updated left)
    obtain ⟨event, rest, rfl, rfl⟩ := allowed
    have performed : exec uuids choice world (.emit event) = (.ok (),
        { world.later choice.elapsed with events := world.events ++ [event] }) := by
      rw [exec_performed timely.1]
      rfl
    refine ⟨⟨review, .decided updated rest⟩, rest, ?_⟩
    have state : after =
        { world.later choice.elapsed with events := world.events ++ [event] } := by
      simp only [after, performed]
    have phase : g' = ⟨review, .decided updated rest⟩ := by
      simp only [g', answer, performed]
      rfl
    rw [state, phase]
    exact
      { remembers := List.getElem?_set_self lt
        phase := rfl
        row := decided.row
        decides := decided.decides
        events := by simpa only [List.append_assoc, List.singleton_append] using decided.events
        others := by
          intro j other ne present
          rw [List.getElem?_set_ne ne.symm] at present
          exact decided.others j other ne present }
  · have waits := decided.others i g own remembers
    have looking (looks : g.phase = .begun ∨ ∃ other, g.phase = .found other) :
        DecidedBy uuids start id application k winner updated left after (memory.set i g') := by
      obtain ⟨left', waits'⟩ := waits_next waits read allowed timely.1
        ⟨updated, decided.row, Or.inr ⟨decided.decides.not_pending, trivial⟩⟩ looks
      have state : after = world.later choice.elapsed := left'
      rw [state]
      exact
        { remembers := by rw [List.getElem?_set_ne own, decided.remembers]
          phase := decided.phase
          row := decided.row
          decides := decided.decides
          events := decided.events
          others := by
            intro j other ne present
            rw [Pool.getElem?_set_of_some remembers] at present
            split at present
            · cases present
              exact waits'
            · exact decided.others j other ne present }
    obtain ⟨review, phase⟩ := g
    cases phase with
    | begun => exact ⟨winner, left, looking (Or.inl rfl)⟩
    | found other => exact ⟨winner, left, looking (Or.inr ⟨other, rfl⟩)⟩
    | timed other reviewedAt =>
      obtain ⟨-, rfl⟩ := allowed
      exact absurd (timely.2 id read updated decided.row) decided.decides.not_pending
    | decided | broken => exact (waits : False).elim
    | refused => exact (allowed : False).elim

theorem consistent_preserves (pending : application.status = .pending)
    (fresh : application.rejectionReason = none) :
    Pool.Preserves (exec uuids) deciding (fun choice world _ op => Timely uuids choice world op)
      (Consistent uuids start id application) := by
  intro choice world memory i g op remembers consistent allowed timely
  obtain ⟨lt, same⟩ := List.getElem?_eq_some_iff.mp remembers
  have member : g ∈ memory := same ▸ List.getElem_mem lt
  have read := consistent.reads g member
  refine ⟨(exec_users uuids choice world op).trans consistent.users,
    Pool.forall_mem_set consistent.reads read, ?_⟩
  rcases consistent.decision with undecided | ⟨k, winner, updated, left, decided⟩
  · rcases undecided_next pending fresh remembers consistent.users read undecided allowed timely.1
      with still | ⟨updated, left, decided⟩
    · exact Or.inl still
    · exact Or.inr ⟨i, _, updated, left, decided⟩
  · obtain ⟨winner', left', decided'⟩ := decided_next remembers read decided allowed timely
    exact Or.inr ⟨k, winner', updated, left', decided'⟩

end Deciding

section Runs
variable (uuids : Uuids)

abbrev Reviewing : Type :=
  Pool World Call Call.Answer (Except Exception PublisherApplication)

def reviewing (world : World) (reviews : List Review) : Reviewing :=
  ⟨world, reviews.map Review.run⟩

/-- Review `i` has ended well. -/
def Succeeded (pool : Reviewing) (i : Nat) : Prop := ∃ updated, pool.result? i = some (.ok updated)

instance (pool : Reviewing) (i : Nat) : Decidable (Succeeded pool i) :=
  match ended : pool.result? i with
  | some (.ok updated) => .isTrue ⟨updated, ended⟩
  | some (.error e) => .isFalse fun ⟨updated, same⟩ => by simp [ended] at same
  | none => .isFalse fun ⟨updated, same⟩ => by simp [ended] at same

/-- One review decides, and the application and what is announced are as it decides. -/
structure OneDecision (start : World) (id : String) (application : PublisherApplication)
    (reviews : List Review) (pool : Reviewing) : Prop where
  once : ∀ i j, Succeeded pool i → Succeeded pool j → i = j
  decided : ∀ i review, reviews[i]? = some review → Succeeded pool i →
    ∃ row, pool.state.applications.find? id = some row ∧
      row.status = review.dto.status.status ∧ row.reviewedBy = uuids.read review.adminId ∧
      row.rejectionReason = review.reason ∧
      pool.state.events = start.events ++ review.events application.id application.userId
  someone : pool.Finished → (∃ review ∈ reviews, review.Valid uuids start) →
    ∃ i, Succeeded pool i
  nobody : pool.Finished → (∀ i, ¬ Succeeded pool i) →
    pool.state.applications.find? id = some application ∧ pool.state.events = start.events

variable {uuids} {start : World} {id : String} {application : PublisherApplication}
variable {reviews : List Review}

theorem consistent_begun (found : start.applications.find? id = some application)
    (reads : ∀ review ∈ reviews, uuids.read review.applicationId = some id) :
    Consistent uuids start id application start (reviews.map (⟨·, .begun⟩)) := by
  refine ⟨rfl, fun g member => ?_, Or.inl ⟨found, rfl, fun g member => ?_⟩⟩
  · obtain ⟨review, asked, rfl⟩ := List.mem_map.mp member
    exact reads review asked
  · obtain ⟨review, -, rfl⟩ := List.mem_map.mp member
    trivial

theorem reviews_reach (reviews : List Review) :
    List.Forall₂ (deciding.Reaches Ended) (reviews.map (⟨·, .begun⟩)) (reviews.map Review.run) := by
  induction reviews with
  | nil => exact .nil
  | cons review rest ih => exact .cons (review_reaches review) ih

/-- What is known of the threads and of what they remember. -/
theorem oneDecision_of_consistent {pool : Reviewing} {memory : List Progress}
    (consistent : Consistent uuids start id application pool.state memory)
    (reached : List.Forall₂ (deciding.Reaches Ended) memory pool.threads)
    (asked : memory.map Progress.review = reviews) :
    OneDecision uuids start id application reviews pool := by
  have ended (i : Nat) (result : Except Exception PublisherApplication)
      (done : pool.result? i = some result) : ∃ g, memory[i]? = some g ∧ Ended result g := by
    have program := Pool.done_of_result? done
    obtain ⟨lt, -⟩ := List.getElem?_eq_some_iff.mp program
    have lt' : i < memory.length := by rwa [reached.length_eq]
    exact ⟨_, List.getElem?_eq_getElem lt',
      Pool.post_of_done reached (List.getElem?_eq_getElem lt') program⟩
  have finished (i : Nat) (g : Progress) (remembers : memory[i]? = some g)
      (all : pool.Finished) : Succeeded pool i ∨ g.phase = .refused ∨ g.phase = .broken := by
    obtain ⟨lt, -⟩ := List.getElem?_eq_some_iff.mp remembers
    have lt' : i < pool.threads.length := by rwa [← reached.length_eq]
    obtain ⟨result, done⟩ := all _ (List.getElem_mem lt')
    have program : pool.threads[i]? = some (.done result) := by
      rw [List.getElem?_eq_getElem lt', done]
    have ended := Pool.post_of_done reached remembers program
    cases result with
    | ok updated => exact Or.inl ⟨updated, by rw [Pool.result?, program]⟩
    | error e => exact Or.inr ended
  rcases consistent.decision with undecided | ⟨k, winner, updated, left, decided⟩
  · have nobody (i : Nat) : ¬ Succeeded pool i := by
      rintro ⟨updated, done⟩
      obtain ⟨g, remembers, phase⟩ := ended i _ done
      have waits := undecided.waits g (List.mem_of_getElem? remembers)
      simp only [Ended] at phase
      simp only [Waits, phase] at waits
    refine ⟨fun i _ first => absurd first (nobody i), fun i _ _ first => absurd first (nobody i),
      fun all asking => ?_, fun _ _ => ⟨undecided.row, undecided.events⟩⟩
    obtain ⟨review, member, valid⟩ := asking
    rw [← asked] at member
    obtain ⟨g, present, rfl⟩ := List.mem_map.mp member
    obtain ⟨i, remembers⟩ := List.mem_iff_getElem?.mp present
    have waits := undecided.waits g present
    rcases finished i g remembers all with succeeded | refused | broken
    · exact ⟨i, succeeded⟩
    · simp only [Waits, refused] at waits
      exact (waits valid).elim
    · simp only [Waits, broken] at waits
  · have only (i : Nat) (succeeded : Succeeded pool i) : i = k ∧ left = [] := by
      obtain ⟨row, done⟩ := succeeded
      obtain ⟨g, remembers, phase⟩ := ended i _ done
      simp only [Ended] at phase
      by_cases same : i = k
      · subst same
        cases remembers.symm.trans decided.remembers
        cases phase.symm.trans decided.phase
        exact ⟨rfl, rfl⟩
      · have waits := decided.others i g same remembers
        simp only [Waits, phase] at waits
    have wins (all : pool.Finished) : Succeeded pool k := by
      rcases finished k winner decided.remembers all with succeeded | refused | broken
      · exact succeeded
      · cases refused.symm.trans decided.phase
      · cases broken.symm.trans decided.phase
    refine ⟨fun i j first second => (only i first).1.trans (only j second).1.symm,
      fun i review present succeeded => ?_, fun all _ => ⟨k, wins all⟩,
      fun all nobody => absurd (wins all) (nobody k)⟩
    obtain ⟨rfl, rfl⟩ := only i succeeded
    rw [← asked, List.getElem?_map, decided.remembers] at present
    cases present
    refine ⟨updated, decided.row, decided.decides.status, decided.decides.reviewedBy,
      decided.decides.rejectionReason, ?_⟩
    simpa only [List.append_nil] using decided.events

/-- What the reviews were asked for does not change. -/
theorem recallAll_review (schedule : List (Nat × Choice)) (memory : List Progress)
    (pool : Reviewing) :
    (Pool.recallAll (exec uuids) deciding memory pool schedule).map Progress.review =
      memory.map Progress.review := by
  induction schedule generalizing memory pool with
  | nil => rfl
  | cons turn rest ih =>
    rw [Pool.recallAll, ih, Pool.recallTurn]
    split
    · rename_i op next g about remembers
      rw [List.map_set]
      exact Pool.set_of_some (by rw [List.getElem?_map, remembers]; rfl)
    · rfl

/-- Reviews of an application that is pending decide it once, where every call is carried out and
a decision is written while the application is pending. -/
theorem reviews_decide_once (found : start.applications.find? id = some application)
    (pending : application.status = .pending) (fresh : application.rejectionReason = none)
    (reads : ∀ review ∈ reviews, uuids.read review.applicationId = some id)
    {schedule : List (Nat × Choice)}
    (timely : Pool.EachCall (exec uuids) (Timely uuids) schedule (reviewing start reviews)) :
    OneDecision uuids start id application reviews
      ((reviewing start reviews).run (exec uuids) schedule) := by
  have follow : Pool.Follow deciding (reviews.map (⟨·, .begun⟩)) (reviewing start reviews) :=
    (reviews_reach reviews).imp fun _ _ reaches => reaches.follows
  have run := Pool.run_invariant (consistent_preserves pending fresh)
    (consistent_begun found reads) follow (Pool.meets_of_eachCall _ _ timely _)
  refine oneDecision_of_consistent run.1 (Pool.run_reaches (reviews_reach reviews) schedule) ?_
  rw [recallAll_review, List.map_map]
  exact List.map_id reviews

end Runs

section Examples

/-- An application that waits for a decision. -/
def submitted : PublisherApplication where
  userId := "reader"
  companyName := "Books"
  companyWebsite := none
  companyAddress := none
  taxId := none
  contactName := "Reader"
  contactEmail := "reader@hakawi"
  contactPhone := none
  description := "Books"
  status := .pending
  id := "application"
  reviewedBy := none
  reviewedAt := none
  rejectionReason := none
  createdAt := 0
  updatedAt := 0

def applied : World :=
  { accounts with
    applications := ⟨⟨[submitted], List.nodup_singleton _⟩, List.nodup_singleton _⟩ }

/-- The officer approves and rejects. -/
def opposed : List Review :=
  [{ adminId := "officer", applicationId := "application", dto := { status := .approved } },
    { adminId := "officer", applicationId := "application"
      dto := { status := .rejected, rejectionReason := .value "No books" } }]

/-- The calls of the threads, in this order. -/
def turns (order : List Nat) : List (Nat × Choice) := order.map (·, {})

/-- The rejection looks once the approval is written. -/
theorem reviews_decide_once_late :
    OneDecision .plain applied "application" submitted opposed
      ((reviewing applied opposed).run (exec .plain) (turns [0, 0, 0, 1, 0, 0])) :=
  reviews_decide_once (by decide) rfl rfl (by decide) (by decide)

/-- Both look before either decides. -/
def overlapped : Reviewing :=
  (reviewing applied opposed).run (exec .plain) (turns [0, 1, 0, 1, 0, 1, 0, 0, 1])

/-- The application is rejected, and the account upgraded. -/
theorem reviews_decide_twice :
    ¬ OneDecision .plain applied "application" submitted opposed overlapped ∧
    Succeeded overlapped 0 ∧ Succeeded overlapped 1 ∧
    (overlapped.state.applications.find? "application").map (·.status) = some .rejected ∧
    .userUpgraded "reader" "reader" "publisher" ∈ overlapped.state.events := by
  have both : Succeeded overlapped 0 ∧ Succeeded overlapped 1 ∧
      (overlapped.state.applications.find? "application").map (·.status) = some .rejected ∧
      .userUpgraded "reader" "reader" "publisher" ∈ overlapped.state.events := by
    decide
  refine ⟨fun decision => ?_, both⟩
  have same : 0 = 1 := decision.once 0 1 both.1 both.2.1
  cases same

end Examples
end Publishers
