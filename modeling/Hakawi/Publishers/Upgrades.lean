import Hakawi.Admin.Service
import Hakawi.Auth.Footprint
import Hakawi.Publishers.Service

/-!
# Upgrades of accounts

An upgrade writes the account type that was asked for, an approval of a publisher only announces
one, and the handler of the announcement sends a notification. What an account satisfies is read
off its type.
-/

namespace Publishers
open Common Store Effects
open Admin (Uuids)

inductive AccountType where
  | reader
  | risingStar
  | professional
  | publisher
  | admin
  deriving DecidableEq

namespace AccountType

def value : AccountType → String
  | reader => "reader"
  | risingStar => "rising_star"
  | professional => "professional"
  | publisher => "publisher"
  | admin => "admin"

/-- The column holds a text. -/
def normalize (text : String) : AccountType :=
  match Auth.UsersService.normalizeAccountType text with
  | "rising_star" => risingStar
  | "professional" => professional
  | "publisher" => publisher
  | "admin" => admin
  | _ => reader

/-- `ACCOUNT_TYPE_IMPLIES` -/
def implies : AccountType → List AccountType
  | reader => [reader]
  | risingStar => [reader, risingStar]
  | professional => [reader, risingStar, professional]
  | publisher => [reader, risingStar, publisher]
  | admin => [reader, risingStar, professional, publisher, admin]

def accountTypeAtLeast (accountType required : AccountType) : Bool :=
  required ∈ accountType.implies

theorem accountTypeAtLeast_trans {first second third : AccountType}
    (above : accountTypeAtLeast first second = true)
    (above' : accountTypeAtLeast second third = true) : accountTypeAtLeast first third = true := by
  revert above above'
  cases first <;> cases second <;> cases third <;> decide

end AccountType

open AccountType (accountTypeAtLeast)

/-- The account, where there is one, satisfies a type. -/
def Satisfies (auth : Auth.World) (userId : String) (required : AccountType) : Prop :=
  ∀ user ∈ auth.findById userId, accountTypeAtLeast (.normalize user.accountType) required = true

instance (auth : Auth.World) (userId : String) (required : AccountType) :
    Decidable (Satisfies auth userId required) := by
  unfold Satisfies
  infer_instance

/-- Who was approved satisfies publisher. -/
def Honoured (world : World) : Prop :=
  ∀ application ∈ world.applications.rows, application.status = .approved →
    Satisfies world.auth application.userId .publisher

instance (world : World) : Decidable (Honoured world) := by
  unfold Honoured
  infer_instance

/-- Nobody stops satisfying a type. -/
def Widens (before after : Auth.World) : Prop :=
  ∀ userId required, Satisfies before userId required → Satisfies after userId required

section Upgrades
open Auth (User)
open Auth.UsersService (RISING_STAR PROFESSIONAL)

/-- What the database counts for an account. -/
abbrev Counts : Type := Auth.Count → Nat

/-- What an account with these counts is short of. -/
def Counts.shortfalls (counts : Counts) (user : User) : List String :=
  Auth.UsersService.shortfalls user (counts .publishedStories) (counts .storyViews)
    (counts .storyReactions) (counts .followers)

/-- What an upgrade asks of the account and of the target. -/
structure Upgrades (counts : Counts) (user : User) (target : String) (approvedByAdmin : Bool) :
    Prop where
  present : user.deletedAt = none
  other : user.accountType ≠ target
  verified : user.emailVerified = true
  offered : target = RISING_STAR ∨ target = PROFESSIONAL
  approved : target = PROFESSIONAL → approvedByAdmin = true
  eligible : target = PROFESSIONAL → counts.shortfalls user = []

instance (counts : Counts) (user : User) (target : String) (approvedByAdmin : Bool) :
    Decidable (Upgrades counts user target approvedByAdmin) :=
  decidable_of_iff (user.deletedAt = none ∧ user.accountType ≠ target ∧ user.emailVerified = true ∧
      (target = RISING_STAR ∨ target = PROFESSIONAL) ∧
      (target = PROFESSIONAL → approvedByAdmin = true) ∧
      (target = PROFESSIONAL → counts.shortfalls user = []))
    ⟨fun ⟨a, b, c, d, e, f⟩ => ⟨a, b, c, d, e, f⟩, fun ⟨a, b, c, d, e, f⟩ => ⟨a, b, c, d, e, f⟩⟩

def retype (id target : String) (user : User) : User :=
  if user.id = id then user.update { accountType := some target } else user

/-- An execution in which the counts are those of the database. -/
def counting (counts : Counts) (choice : Auth.Choice) (auth : Auth.World) (op : Auth.Call) :
    op.Answer × Auth.World :=
  match op with
  | .count what userId =>
    Auth.exec { choice with count := counts what } auth (.count what userId)
  | op => Auth.exec choice auth op

/-- Any such execution of the users service. -/
abbrev anyhow (counts : Counts) : Program.OpSpec Auth.Call Auth.Call.Answer Auth.World :=
  Program.execSpec (counting counts) fun _ => True

variable {counts : Counts} {choice : Auth.Choice} {auth : Auth.World} {id : String}

theorem anyhow_monotone : (anyhow counts).Monotone := Program.execSpec_monotone _ _

/-- No account is written. -/
def Unwritten (op : Auth.Call) : Prop := ∀ id data, op ≠ .update id data

variable (counts) in
theorem users_of_unwritten {op : Auth.Call} (unwritten : Unwritten op) (choice : Auth.Choice)
    (auth : Auth.World) : (counting counts choice auth op).2.users = auth.users := by
  cases op with
  | update id data => exact absurd rfl (unwritten id data)
  | _ =>
    cases performed : choice.outcome <;>
      simp only [counting, Auth.exec, Auth.Call.mayFail, performed, Auth.World.perform]

theorem users_of_update (data : Auth.UpdateUserInput) :
    (counting counts choice auth (.update id data)).2.users = auth.users ∨
      (counting counts choice auth (.update id data)).2.users =
        auth.users.map fun user => if user.id = id then user.update data else user := by
  cases performed : choice.outcome <;>
    simp only [counting, Auth.exec, Auth.Call.mayFail, performed, Auth.World.perform]
  · exact Or.inr trivial
  · exact Or.inl trivial
  · exact Or.inr trivial

theorem wpE_unwritten {α : Type} {p : Auth.Method α} (only : OnlyE Unwritten p) :
    wpE (anyhow counts) p (fun _ after => after.users = auth.users) auth :=
  only.only.wp_inv (fun c w _ unwritten same => (users_of_unwritten counts unwritten c w).trans same) rfl

/-- A call that writes no account, and what comes after its answer. -/
theorem wpE_unwritten_next {β : Type} {op : Auth.Call} {next : op.Value → Auth.Method β}
    {Q : Except Auth.AuthError β → Auth.World → Prop} (unwritten : Unwritten op)
    (goes : ∀ choice value after, after.users = auth.users →
      (counting counts choice auth op).1 = .ok value → wpE (anyhow counts) (next value) Q after)
    (thrown : ∀ e after, after.users = auth.users → Q (.error e) after) :
    wpE (anyhow counts) (Auth.call op >>= next) Q auth := by
  rw [wpE_bind]
  intro choice _
  have same := users_of_unwritten counts unwritten choice auth
  simp only [Program.wp_done]
  cases answered : (counting counts choice auth op).1 with
  | ok value => exact goes choice value _ same answered
  | error e => exact thrown _ _ same

/-- The row that is found is one of the account. -/
theorem findById_answers {found : Option User}
    (answered : (counting counts choice auth (.findById id)).1 = .ok found) :
    found = auth.findById id := by
  cases performed : choice.outcome with
  | performed =>
    simp only [counting, Auth.exec, Auth.Call.mayFail, performed, Auth.World.perform] at answered
    cases answered
    rfl
  | refused | lost =>
    simp only [counting, Auth.exec, Auth.Call.mayFail, performed, reduceCtorEq] at answered

theorem count_answers {what : Auth.Count} {n : Nat}
    (answered : (counting counts choice auth (.count what id)).1 = .ok n) : n = counts what := by
  cases performed : choice.outcome with
  | performed =>
    simp only [counting, Auth.exec, Auth.Call.mayFail, performed, Auth.World.perform] at answered
    cases answered
    rfl
  | refused | lost =>
    simp only [counting, Auth.exec, Auth.Call.mayFail, performed, reduceCtorEq] at answered

theorem findById_congr {before after : Auth.World} (same : after.users = before.users)
    (userId : String) : after.findById userId = before.findById userId := by
  rw [Auth.World.findById, Auth.World.findById, same]

/-- Who passes is short of nothing. -/
theorem passEligibility_passes {user : User} (found : auth.findById id = some user)
    (target : String) : wpE (anyhow counts) (Auth.UsersService.passEligibility id target)
      (fun r after => after.users = auth.users ∧
        ∀ passed, r = .ok passed → target = PROFESSIONAL → counts.shortfalls user = []) auth := by
  have thrown (e : Auth.AuthError) (after : Auth.World) (same : after.users = auth.users) :
      after.users = auth.users ∧ ∀ passed : Unit, Except.error e = .ok passed →
        target = PROFESSIONAL → counts.shortfalls user = [] :=
    ⟨same, fun _ never => by cases never⟩
  rw [Auth.UsersService.passEligibility]
  split
  · have reasons : wpE (anyhow counts) (Auth.UsersService.checkProfessionalEligibility id)
        (fun r after => after.users = auth.users ∧
          ∀ reasons, r = .ok reasons → reasons = counts.shortfalls user) auth := by
      rw [Auth.UsersService.checkProfessionalEligibility]
      refine wpE_unwritten_next (by rintro _ _ ⟨⟩) (fun _ found' w same answered => ?_)
        fun e w same => ⟨same, fun _ never => by cases never⟩
      rw [findById_answers answered, found]
      refine wpE_unwritten_next (by rintro _ _ ⟨⟩) (fun _ stories w₁ same₁ first => ?_)
        fun e w₁ same₁ => ⟨same₁.trans same, fun _ never => by cases never⟩
      refine wpE_unwritten_next (by rintro _ _ ⟨⟩) (fun _ views w₂ same₂ second => ?_)
        fun e w₂ same₂ => ⟨same₂.trans (same₁.trans same), fun _ never => by cases never⟩
      refine wpE_unwritten_next (by rintro _ _ ⟨⟩) (fun _ reactions w₃ same₃ third => ?_)
        fun e w₃ same₃ => ⟨same₃.trans (same₂.trans (same₁.trans same)),
          fun _ never => by cases never⟩
      refine wpE_unwritten_next (by rintro _ _ ⟨⟩) (fun _ followers w₄ same₄ fourth => ?_)
        fun e w₄ same₄ => ⟨same₄.trans (same₃.trans (same₂.trans (same₁.trans same))),
          fun _ never => by cases never⟩
      refine ⟨same₄.trans (same₃.trans (same₂.trans (same₁.trans same))), fun reasons same => ?_⟩
      cases same
      rw [count_answers first, count_answers second, count_answers third, count_answers fourth]
      rfl
    rw [wpE_bind]
    refine wpE_mono anyhow_monotone (fun r w ended => ?_) reasons
    cases r with
    | error e => exact thrown e w ended.1
    | ok listed =>
      have same := ended.2 listed rfl
      dsimp only
      split
      · rename_i none
        exact ⟨ended.1, fun _ _ _ => same.symm.trans none⟩
      · exact thrown _ w ended.1
  · rename_i other
    exact ⟨rfl, fun _ _ professional => absurd professional other⟩

variable (d : Auth.Deployment)

/-- What comes after the account is written. -/
theorem announced_unwritten (id target oldType : String) :
    OnlyE Unwritten (do
      Auth.UsersService.revokeRefreshTokens d id
      Auth.call (.emit (.userUpgraded id oldType target))
      match ← Auth.call (.findById id) with
      | none => throw (.notFound "User not found")
      | some updated => return Auth.UsersService.toClientUser updated) := by
  refine Auth.onlyE_next (by rintro _ _ ⟨⟩) fun _ => ?_
  refine Auth.onlyE_next (by rintro _ _ ⟨⟩) fun _ => ?_
  refine Auth.onlyE_next (by rintro _ _ ⟨⟩) fun found => ?_
  split
  · exact onlyE_throw _
  · exact onlyE_pure _

variable (counts auth) in
/-- An upgrade writes the one account, if it passes. -/
theorem upgradeAccount_writes (id target : String) (approvedByAdmin : Bool) :
    wpE (anyhow counts) (Auth.UsersService.upgradeAccount d id target approvedByAdmin)
      (fun _ after => after.users = auth.users ∨
        ∃ user ∈ auth.findById id, Upgrades counts user target approvedByAdmin ∧
          after.users = auth.users.map (retype id target)) auth := by
  rw [Auth.UsersService.upgradeAccount]
  refine wpE_unwritten_next (by rintro _ _ ⟨⟩) (fun choice found w read answered => ?_)
    fun _ _ => Or.inl
  have same := findById_answers answered
  split
  · exact Or.inl read
  rename_i user kept
  obtain ⟨rfl, present⟩ := Option.filter_eq_some_iff.mp kept
  split
  · exact Or.inl read
  split
  · exact Or.inl read
  split
  · exact Or.inl read
  split
  · exact Or.inl read
  rename_i other verified offered approved
  rw [wpE_bind]
  refine wpE_mono anyhow_monotone (fun r w' passed => ?_)
    (passEligibility_passes ((findById_congr read id).trans same.symm) target)
  obtain ⟨unwritten, eligible⟩ := passed
  cases r with
  | error e => exact Or.inl (unwritten.trans read)
  | ok _ =>
    have upgrades : Upgrades counts user target approvedByAdmin :=
      { present := Option.isNone_iff_eq_none.mp present
        other
        verified := of_not_not verified
        offered := by
          by_contra never
          exact offered (not_or.mp never)
        approved := fun professional => by
          by_contra refused
          exact approved ⟨professional, Bool.eq_false_of_not_eq_true refused⟩
        eligible := eligible _ rfl }
    have before : w'.users = auth.users := unwritten.trans read
    dsimp only
    rw [wpE_bind]
    intro choice' _
    have either (after : Auth.World) (same' : after.users =
        (counting counts choice' w' (.update id { accountType := some target })).2.users) :
        after.users = auth.users ∨ ∃ user ∈ auth.findById id,
          Upgrades counts user target approvedByAdmin ∧
          after.users = auth.users.map (retype id target) := by
      rw [same', ← before]
      rcases users_of_update { accountType := some target } with kept | written
      · exact Or.inl kept
      · exact Or.inr ⟨user, same.symm, upgrades, written⟩
    cases (counting counts choice' w' (.update id { accountType := some target })).1 with
    | error e => exact either _ rfl
    | ok _ =>
      refine wpE_mono anyhow_monotone (fun _ after unwritten => either after unwritten) ?_
      exact wpE_unwritten (announced_unwritten d id target user.accountType)

/-- The target implies what the account has. -/
def Raises (counts : Counts) (auth : Auth.World) (id target : String) (approvedByAdmin : Bool) :
    Prop :=
  ∀ user ∈ auth.findById id, Upgrades counts user target approvedByAdmin →
    accountTypeAtLeast (.normalize target) (.normalize user.accountType) = true

instance (counts : Counts) (auth : Auth.World) (id target : String) (approvedByAdmin : Bool) :
    Decidable (Raises counts auth id target approvedByAdmin) := by
  unfold Raises
  infer_instance

theorem widens_of_users {before after : Auth.World} (same : after.users = before.users) :
    Widens before after := by
  intro userId required satisfied user found
  rw [findById_congr same] at found
  exact satisfied user found

theorem findById_retype {before after : Auth.World} {id target : String}
    (written : after.users = before.users.map (retype id target)) (userId : String) :
    after.findById userId = (before.findById userId).map (retype id target) := by
  rw [Auth.World.findById, Auth.World.findById, written, List.find?_map]
  congr 2
  funext user
  rw [Function.comp_apply, retype]
  split <;> rfl

theorem upgradeAccount_widens {target : String} {approvedByAdmin : Bool}
    (raises : Raises counts auth id target approvedByAdmin) :
    wpE (anyhow counts) (Auth.UsersService.upgradeAccount d id target approvedByAdmin)
      (fun _ after => Widens auth after) auth := by
  refine wpE_mono anyhow_monotone (fun r after ended => ?_)
    (upgradeAccount_writes counts auth d id target approvedByAdmin)
  rcases ended with same | ⟨user, found, upgrades, written⟩
  · exact widens_of_users same
  · intro userId required satisfied other found'
    rw [findById_retype written, Option.mem_map] at found'
    obtain ⟨previous, present, rfl⟩ := found'
    have satisfied' := satisfied previous present
    rw [retype]
    split
    · rename_i named
      have own : userId = id := by
        rw [← named]
        have found : previous.id = userId := by simpa using List.find?_some present
        exact found.symm
      subst own
      have same : previous = user := Option.some.inj (present.symm.trans found)
      subst same
      exact AccountType.accountTypeAtLeast_trans (raises previous found upgrades) satisfied'
    · exact satisfied'

end Upgrades

section Applications
variable {uuids : Uuids} {choice : Choice} {world : World}

theorem written_reads {α β : Type} (result : Except DatabaseError α) (f : α → β) :
    (world.written (result.map fun a => (f a, world))).2 = world := by
  cases result <;> rfl

theorem Applications.rows_insert {t t' : Applications} {row : PublisherApplication}
    (inserted : t.insert row = .ok t') : t'.rows = t.rows ++ [row] := by
  rw [insert] at inserted
  split at inserted
  · cases inserted
  split at inserted
  · cases inserted
  · cases inserted
    rfl

/-- An application is written: a new one, or by a review. -/
inductive Writes (uuids : Uuids) (world : World) : Call → World → Prop
  | inserted (data : NewPublisherApplication) (row : PublisherApplication) (after : World)
      (status : row.status = data.status) (users : after.auth.users = world.auth.users)
      (rows : after.applications.rows = world.applications.rows ++ [row]) :
      Writes uuids world (.insertApplication data) after
  | reviewed (text id : String) (changes : ApplicationChanges) (row : PublisherApplication)
      (review : PublisherApplication → PublisherApplication) (after : World)
      (read : uuids.read text = some id) (found : world.applications.find? id = some row)
      (status : ∀ r, (review r).status = changes.status)
      (owner : ∀ r, (review r).userId = r.userId)
      (users : after.auth.users = world.auth.users)
      (rows : after.applications.rows =
        world.applications.rows.map fun r => if r.id = id then review r else r) :
      Writes uuids world (.updateApplication text changes) after

theorem insertApplication_writes (random : String) (data : NewPublisherApplication) :
    (world.written (world.insertApplication uuids random data)).2 = world ∨
      Writes uuids world (.insertApplication data)
        (world.written (world.insertApplication uuids random data)).2 := by
  rw [World.insertApplication]
  cases world.reference uuids data.userId with
  | error e => exact Or.inl rfl
  | ok userId =>
    let row : PublisherApplication :=
      { data with
        userId, id := random, reviewedBy := none, reviewedAt := none, rejectionReason := none
        createdAt := world.auth.clock, updatedAt := world.auth.clock }
    cases inserted : world.applications.insert row with
    | error e =>
      left
      simp only [bind, Except.bind, row] at inserted ⊢
      rw [inserted]
      rfl
    | ok applications =>
      right
      simp only [bind, Except.bind, row] at inserted ⊢
      rw [inserted]
      exact .inserted data row _ rfl rfl (Applications.rows_insert inserted)

theorem updateApplication_writes (text : String) (changes : ApplicationChanges) :
    (world.written (world.updateApplication uuids text changes)).2 = world ∨
      Writes uuids world (.updateApplication text changes)
        (world.written (world.updateApplication uuids text changes)).2 := by
  rw [World.updateApplication, World.read]
  cases read : uuids.read text with
  | none => exact Or.inl rfl
  | some id =>
    simp only [bind, Except.bind]
    cases found : world.applications.find? id with
    | none => exact Or.inl rfl
    | some row =>
      cases world.reference uuids changes.reviewedBy with
      | error e => exact Or.inl rfl
      | ok reviewedBy =>
        let review := fun row : PublisherApplication =>
          row.review { changes with reviewedBy } world.auth.clock
        exact Or.inr (.reviewed text id changes row review _ read found (fun _ => rfl)
          (fun _ => rfl) rfl rfl)

/-- A statement on the writers. -/
def LeavesApplications {α : Type} (world : World) (result : Except DatabaseError (α × World)) :
    Prop :=
  ∀ answer after, result = .ok (answer, after) →
    after.auth.users = world.auth.users ∧ after.applications = world.applications

theorem written_leaves {α : Type} {result : Except DatabaseError (α × World)}
    (leaves : LeavesApplications world result) :
    (world.written result).2.auth.users = world.auth.users ∧
      (world.written result).2.applications = world.applications := by
  cases ended : result with
  | error e => exact ⟨rfl, rfl⟩
  | ok answered => exact leaves answered.1 answered.2 ended

theorem insertWriterLink_leaves (random : String) (data : NewPublisherWriter) :
    LeavesApplications world (world.insertWriterLink uuids random data) := by
  intro answer after ended
  simp only [World.insertWriterLink, bind, Except.bind] at ended
  split at ended
  · cases ended
  split at ended
  · cases ended
  split at ended
  · cases ended
  · cases ended
    exact ⟨rfl, rfl⟩

theorem updateWriterLink_leaves (publisherId writerId : String) (dto : UpdatePublisherWriterDto) :
    LeavesApplications world (world.updateWriterLink uuids publisherId writerId dto) := by
  intro answer after ended
  simp only [World.updateWriterLink, bind, Except.bind] at ended
  split at ended
  · cases ended
  split at ended
  · cases ended
    exact ⟨rfl, rfl⟩
  split at ended
  · cases ended
  · cases ended
    exact ⟨rfl, rfl⟩

theorem perform_applications (random : String) (op : Call) :
    (world.perform uuids random op).2.auth.users = world.auth.users ∧
        (world.perform uuids random op).2.applications = world.applications ∨
      Writes uuids world op (world.perform uuids random op).2 := by
  cases op with
  | now | emit | notify => exact Or.inl ⟨rfl, rfl⟩
  | findApplicationByUserId | findApplicationById | findWriterLink =>
    left
    rw [World.perform, written_reads]
    exact ⟨rfl, rfl⟩
  | insertApplication data =>
    rcases insertApplication_writes random data with same | writes
    · left
      rw [World.perform, same]
      exact ⟨rfl, rfl⟩
    · exact Or.inr writes
  | updateApplication text changes =>
    rcases updateApplication_writes text changes with same | writes
    · left
      rw [World.perform, same]
      exact ⟨rfl, rfl⟩
    · exact Or.inr writes
  | insertWriterLink data => exact Or.inl (written_leaves (insertWriterLink_leaves random data))
  | updateWriterLink publisherId writerId dto =>
    exact Or.inl (written_leaves (updateWriterLink_leaves publisherId writerId dto))
  | deleteWriterLink publisherId writerId =>
    left
    rw [World.perform]
    cases World.pair uuids publisherId writerId <;> exact ⟨rfl, rfl⟩

/-- Nothing is approved that the account does not satisfy. -/
def Allowed (uuids : Uuids) (world : World) : Call → Prop
  | .insertApplication data => data.status ≠ .approved
  | .updateApplication text changes => changes.status = .approved → ∀ id row,
      uuids.read text = some id → world.applications.find? id = some row →
        Satisfies world.auth row.userId .publisher
  | _ => True

/-- Nothing is approved. -/
def Harmless : Call → Prop
  | .insertApplication data => data.status ≠ .approved
  | .updateApplication _ changes => changes.status ≠ .approved
  | _ => True

theorem allowed_of_harmless {op : Call} (harmless : Harmless op) : Allowed uuids world op := by
  cases op with
  | insertApplication data => exact harmless
  | updateApplication text changes => exact fun approved => absurd approved harmless
  | _ => trivial

theorem satisfies_of_users {before after : Auth.World} (same : after.users = before.users)
    {userId : String} {required : AccountType} (satisfied : Satisfies before userId required) :
    Satisfies after userId required := widens_of_users same userId required satisfied

theorem perform_honoured {random : String} {op : Call} (honoured : Honoured world)
    (allowed : Allowed uuids world op) :
    (world.perform uuids random op).2.auth.users = world.auth.users ∧
      Honoured (world.perform uuids random op).2 := by
  rcases perform_applications random op with ⟨users, same⟩ | writes
  · refine ⟨users, fun application member approved => ?_⟩
    rw [same] at member
    exact satisfies_of_users users (honoured application member approved)
  · cases writes with
    | inserted data row after status users rows =>
      refine ⟨users, fun application member approved => ?_⟩
      rw [rows] at member
      rcases List.mem_append.mp member with old | new
      · exact satisfies_of_users users (honoured application old approved)
      · rw [List.mem_singleton.mp new, status] at approved
        exact absurd approved allowed
    | reviewed text id changes row review after read found status owner users rows =>
      refine ⟨users, fun application member approved => ?_⟩
      rw [rows] at member
      obtain ⟨previous, present, rfl⟩ := List.mem_map.mp member
      split at approved
      · rename_i named
        have own : previous = row := Keyed.eq_of_find? found present named
        rw [if_pos named, owner]
        rw [status] at approved
        exact satisfies_of_users users (own ▸ allowed approved id row read found)
      · rename_i other
        rw [if_neg other]
        exact satisfies_of_users users (honoured previous present approved)

/-- Any execution of the publishers service. -/
abbrev anyway (uuids : Uuids) : Program.OpSpec Call Call.Answer World :=
  Program.execSpec (exec uuids) fun _ => True

theorem anyway_monotone : (anyway uuids).Monotone := Program.execSpec_monotone _ _

variable (uuids choice world) in
/-- A call does nothing but let the time pass, or it is carried out. -/
theorem exec_state (op : Call) : (exec uuids choice world op).2 = world.later choice.elapsed ∨
    (exec uuids choice world op).2 =
      ((world.later choice.elapsed).perform uuids choice.random op).2 := by
  rw [exec]
  split
  · exact Or.inl rfl
  · exact Or.inr rfl
  · exact Or.inr rfl

/-- The accounts are as they were, and who was approved satisfies publisher. -/
structure Keeps (before after : World) : Prop where
  users : after.auth.users = before.auth.users
  honoured : Honoured after

theorem exec_keeps {before : World} {op : Call} (keeps : Keeps before world)
    (allowed : Allowed uuids world op) (choice : Choice) :
    Keeps before (exec uuids choice world op).2 := by
  have honoured : Honoured (world.later choice.elapsed) := keeps.honoured
  rcases exec_state uuids choice world op with same | performed
  · rw [same]
    exact ⟨keeps.users, honoured⟩
  · rw [performed]
    have allowed' : Allowed uuids (world.later choice.elapsed) op := by
      cases op <;> exact allowed
    obtain ⟨users, honoured'⟩ := perform_honoured honoured allowed'
    exact ⟨users.trans keeps.users, honoured'⟩

theorem wpE_harmless {α : Type} {p : Method α} {before : World} (only : OnlyE Harmless p)
    (keeps : Keeps before world) : wpE (anyway uuids) p (fun _ => Keeps before) world :=
  only.only.wp_inv (fun c _ _ harmless keeps => exec_keeps keeps (allowed_of_harmless harmless) c)
    keeps

theorem harmless_call {op : Call} (harmless : Harmless op) : OnlyE Harmless (call op) :=
  ⟨harmless, fun _ => trivial⟩

theorem harmless_getApplicationById (id : String) :
    OnlyE Harmless (PublishersService.getApplicationById id) := by
  refine OnlyE.bind (harmless_call trivial) fun found => ?_
  split
  · exact onlyE_throw _
  · exact onlyE_pure _

theorem harmless_submitApplication (userId : String) (dto : CreatePublisherApplicationDto) :
    OnlyE Harmless (PublishersService.submitApplication userId dto) := by
  refine OnlyE.bind (harmless_call trivial) fun found => ?_
  split
  · exact onlyE_throw _
  refine OnlyE.bind (OnlyE.bind (harmless_call trivial) fun found' => ?_) fun application => ?_
  · split
    · exact onlyE_throw _
    · exact harmless_call (fun never => by cases never)
  · exact OnlyE.bind (harmless_call trivial) fun _ => onlyE_pure _

theorem harmless_getWriterLink (publisherId writerId : String) :
    OnlyE Harmless (PublishersService.getWriterLink publisherId writerId) := by
  refine OnlyE.bind (harmless_call trivial) fun found => ?_
  split
  · exact onlyE_throw _
  · exact onlyE_pure _

theorem harmless_addWriter (publisherId : String) (dto : CreatePublisherWriterDto) :
    OnlyE Harmless (PublishersService.addWriter publisherId dto) := by
  refine OnlyE.bind (harmless_getApplicationById publisherId) fun publisher => ?_
  split
  · exact onlyE_throw _
  split
  · exact onlyE_throw _
  refine OnlyE.bind (OnlyE.bind (harmless_call trivial) fun found => ?_) fun link => ?_
  · split
    · exact onlyE_throw _
    · exact harmless_call trivial
  · exact OnlyE.bind (harmless_call trivial) fun _ => onlyE_pure _

theorem harmless_updateWriterLink (publisherId writerId : String)
    (dto : UpdatePublisherWriterDto) :
    OnlyE Harmless (PublishersService.updateWriterLink publisherId writerId dto) := by
  refine OnlyE.bind (harmless_getWriterLink publisherId writerId) fun _ => ?_
  refine OnlyE.bind (OnlyE.bind (harmless_call trivial) fun found => ?_) fun link => ?_
  · split
    · exact onlyE_throw _
    · exact onlyE_pure _
  · exact OnlyE.bind (harmless_call trivial) fun _ => onlyE_pure _

theorem harmless_removeWriter (publisherId writerId : String) :
    OnlyE Harmless (PublishersService.removeWriter publisherId writerId) := by
  refine OnlyE.bind (harmless_getWriterLink publisherId writerId) fun _ => ?_
  exact OnlyE.bind (harmless_call trivial) fun _ => harmless_call trivial

/-- The account behind a pending application satisfies publisher, if it is to be approved. -/
def Earned (uuids : Uuids) (world : World) (text : String) (verdict : Verdict) : Prop :=
  verdict = .approved → ∀ id ∈ uuids.read text, ∀ application ∈ world.applications.find? id,
    application.status = .pending → Satisfies world.auth application.userId .publisher

instance (world : World) (text : String) (verdict : Verdict) :
    Decidable (Earned uuids world text verdict) := by
  unfold Earned
  infer_instance

/-- The application that is found is the one the database has. -/
theorem findApplicationById_answers {text : String} {found : Option PublisherApplication}
    (answered : (exec uuids choice world (.findApplicationById text)).1 = .ok found) :
    ∃ id, uuids.read text = some id ∧ found = world.applications.find? id := by
  have performed : (exec uuids choice world (.findApplicationById text)).1 =
      ((world.later choice.elapsed).perform uuids choice.random (.findApplicationById text)).1 := by
    rw [exec] at answered ⊢
    split at answered
    · cases answered
    · cases answered
    · rfl
  rw [performed, World.perform, World.read] at answered
  cases read : uuids.read text with
  | none =>
    rw [read] at answered
    cases answered
  | some id =>
    rw [read] at answered
    cases answered
    exact ⟨id, rfl, rfl⟩

/-- What looking changes. -/
structure Looks (before after : World) : Prop where
  users : after.auth.users = before.auth.users
  applications : after.applications = before.applications

theorem Looks.keeps {before after : World} (looks : Looks before after)
    (honoured : Honoured before) : Keeps before after := by
  refine ⟨looks.users, fun application member approved => ?_⟩
  rw [looks.applications] at member
  exact satisfies_of_users looks.users (honoured application member approved)

theorem Looks.trans {x y z : World} (first : Looks x y) (second : Looks y z) : Looks x z :=
  ⟨second.users.trans first.users, second.applications.trans first.applications⟩

variable (uuids) in
theorem looks_now (choice : Choice) (world : World) :
    Looks world (exec uuids choice world .now).2 := ⟨rfl, rfl⟩

variable (uuids) in
theorem looks_findApplicationById (choice : Choice) (world : World) (text : String) :
    Looks world (exec uuids choice world (.findApplicationById text)).2 := by
  rcases exec_state uuids choice world (.findApplicationById text) with same | performed
  · rw [same]
    exact ⟨rfl, rfl⟩
  · rw [performed, World.perform, written_reads]
    exact ⟨rfl, rfl⟩

theorem wpE_call_next {β : Type} {op : Call} {next : op.Value → Method β}
    {Q : Except Exception β → World → Prop}
    (goes : ∀ choice value, (exec uuids choice world op).1 = .ok value →
      wpE (anyway uuids) (next value) Q (exec uuids choice world op).2)
    (thrown : ∀ choice e, Q (.error e) (exec uuids choice world op).2) :
    wpE (anyway uuids) (call op >>= next) Q world := by
  rw [wpE_bind]
  intro choice _
  simp only [Program.wp_done]
  cases answered : (exec uuids choice world op).1 with
  | ok value => exact goes choice value answered
  | error e => exact thrown choice e

theorem harmless_announces (adminId : String) (application updated : PublisherApplication)
    (verdict : Verdict) : OnlyE Harmless (do
      if verdict = .approved then PublishersService.approveApplication application
      call (.emit (.applicationReviewed updated.id application.userId verdict adminId))
      return updated) := by
  split
  · refine OnlyE.bind (harmless_call trivial) fun _ => ?_
    exact OnlyE.bind (harmless_call trivial) fun _ => onlyE_pure _
  · exact OnlyE.bind (harmless_call trivial) fun _ => onlyE_pure _

theorem reviewApplication_keeps {adminId text : String} {dto : ReviewPublisherApplicationDto}
    (honoured : Honoured world) (earned : Earned uuids world text dto.status) :
    wpE (anyway uuids) (PublishersService.reviewApplication adminId text dto)
      (fun _ => Keeps world) world := by
  have found (choice : Choice) := looks_findApplicationById uuids choice world text
  rw [PublishersService.reviewApplication, wpE_bind, PublishersService.getApplicationById]
  refine wpE_call_next (fun choice answer answered => ?_) fun choice e =>
    (found choice).keeps honoured
  cases answer with
  | none => exact (found choice).keeps honoured
  | some application =>
    obtain ⟨id, read, present⟩ := findApplicationById_answers answered
    have looked := found choice
    generalize (exec uuids choice world (.findApplicationById text)).2 = w at looked ⊢
    change wpE (anyway uuids) (if application.status ≠ .pending then _ else _) _ w
    rw [wpE_ite]
    split
    · exact looked.keeps honoured
    · rename_i pending
      refine wpE_call_next (fun choice' reviewedAt _ => ?_) fun choice' e =>
        (looked.trans (looks_now uuids choice' w)).keeps honoured
      have looked' := looked.trans (looks_now uuids choice' w)
      generalize (exec uuids choice' w .now).2 = w' at looked' ⊢
      split
      · exact looked'.keeps honoured
      have allowed (changes : ApplicationChanges) (same : changes.status = dto.status.status) :
          Allowed uuids w' (.updateApplication text changes) := by
        intro approved id' row read' present'
        have verdict : dto.status = .approved := by
          rw [same] at approved
          cases given : dto.status with
          | approved => rfl
          | rejected =>
            rw [given] at approved
            cases approved
        rw [looked'.applications] at present'
        have own : id' = id := Option.some.inj (read'.symm.trans read)
        subst own
        have row_eq : application = row := Option.some.inj (present.trans present')
        subst row_eq
        refine satisfies_of_users looked'.users ?_
        exact earned verdict id' read' application present' (of_not_not pending)
      have kept (changes : ApplicationChanges) (same : changes.status = dto.status.status) :=
        exec_keeps (looked'.keeps honoured) (allowed changes same)
      rw [wpE_bind, PublishersRepository.updateApplication]
      refine wpE_call_next (fun choice'' answer _ => ?_) fun choice'' e => kept _ rfl choice''
      cases answer with
      | none => exact kept _ rfl choice''
      | some updated =>
        exact wpE_harmless (harmless_announces adminId application updated dto.status)
          (kept _ rfl choice'')

/-- What is asked for an operation, of the state before it. -/
def Operation.Earned (uuids : Uuids) (world : World) : Operation → Prop
  | reviewApplication _ id dto => Publishers.Earned uuids world id dto.status
  | _ => True

instance (world : World) (operation : Operation) :
    Decidable (operation.Earned uuids world) := by
  cases operation <;> unfold Operation.Earned <;> infer_instance

theorem operation_keeps (operation : Operation) (honoured : Honoured world)
    (earned : operation.Earned uuids world) :
    wpE (anyway uuids) operation.run (fun _ => Keeps world) world := by
  have start : Keeps world world := ⟨rfl, honoured⟩
  have ends {α : Type} {p : Method α} (kept : wpE (anyway uuids) p (fun _ => Keeps world) world) :
      wpE (anyway uuids) (do let _ ← p) (fun _ => Keeps world) world := by
    rw [wpE_bind]
    refine wpE_mono anyway_monotone (fun r w keeps => ?_) kept
    cases r <;> exact keeps
  cases operation with
  | submitApplication userId dto =>
    exact ends (wpE_harmless (harmless_submitApplication userId dto) start)
  | reviewApplication adminId id dto => exact ends (reviewApplication_keeps honoured earned)
  | addWriter publisherId dto =>
    exact ends (wpE_harmless (harmless_addWriter publisherId dto) start)
  | updateWriterLink publisherId writerId dto =>
    exact ends (wpE_harmless (harmless_updateWriterLink publisherId writerId dto) start)
  | removeWriter publisherId writerId =>
    exact wpE_harmless (harmless_removeWriter publisherId writerId) start
  | handleUserUpgraded userId oldType newType =>
    exact wpE_harmless (harmless_call trivial) start

end Applications

section Runs
variable (d : Auth.Deployment) (uuids : Uuids)

/-- What is asked of the two services, and what the environment decides at each call. -/
inductive Request where
  | upgradeAccount (id target : String) (approvedByAdmin : Bool) (counts : Counts)
      (choices : Nat → Auth.Choice)
  | publishers (operation : Operation) (choices : Nat → Choice)

namespace Request

def step (world : World) : Request → World
  | upgradeAccount id target approvedByAdmin counts choices =>
    { world with auth := ((Auth.UsersService.upgradeAccount d id target approvedByAdmin).run.eval
        (counting counts) choices world.auth).2 }
  | publishers operation choices => (operation.run.run.eval (exec uuids) choices world).2

/-- A target implies what the account has, and who is approved satisfies publisher. -/
def Fits (world : World) : Request → Prop
  | upgradeAccount id target approvedByAdmin counts _ =>
    Raises counts world.auth id target approvedByAdmin
  | publishers operation _ => operation.Earned uuids world

instance (world : World) (request : Request) : Decidable (request.Fits uuids world) := by
  cases request <;> unfold Fits <;> infer_instance

end Request

variable {d uuids} {world : World}

theorem step_widens {request : Request} (honoured : Honoured world)
    (fits : request.Fits uuids world) :
    Widens world.auth (request.step d uuids world).auth ∧
      Honoured (request.step d uuids world) := by
  cases request with
  | upgradeAccount id target approvedByAdmin counts choices =>
    have widens : Widens world.auth (Request.step d uuids world
        (.upgradeAccount id target approvedByAdmin counts choices)).auth :=
      Program.eval_of_wp (upgradeAccount_widens d fits) fun _ => trivial
    exact ⟨widens, fun application member approved =>
      widens _ _ (honoured application member approved)⟩
  | publishers operation choices =>
    have keeps : Keeps world (Request.step d uuids world (.publishers operation choices)) :=
      Program.eval_of_wp (operation_keeps operation honoured fits) fun _ => trivial
    exact ⟨widens_of_users keeps.users, keeps.honoured⟩

/-- In a run of upgrades to higher types and approvals of publishers, no account loses a type and
who was approved is a publisher. -/
theorem upgrades_widen (honoured : Honoured world) (requests : List Request)
    (fits : Trace.Meets (Request.step d uuids) (Request.Fits uuids) world requests) (n : Nat) :
    let before := Trace.run (Request.step d uuids) world (requests.take n)
    let after := Trace.run (Request.step d uuids) world (requests.take (n + 1))
    Honoured before ∧ Widens before.auth after.auth := by
  induction requests generalizing world n with
  | nil => exact ⟨by simpa using honoured, by simp [Widens]⟩
  | cons request rest ih =>
    obtain ⟨widens, honoured'⟩ := step_widens (d := d) honoured fits.1
    cases n with
    | zero => exact ⟨honoured, widens⟩
    | succ n => exact ih honoured' fits.2 n

end Runs

section Examples

/-- A reader, a professional and an officer. -/
def accounts : World where
  auth := { Auth.signedIn with
    users := [Auth.reader,
      { Auth.reader with id := "writer", accountType := "professional" },
      { Auth.reader with id := "officer", accountType := "admin" }] }
  applications := .empty
  writers := ⟨[], List.nodup_nil⟩
  events := []
  notifications := []

/-- The reader applies. -/
def applies : Request :=
  .publishers (.submitApplication "reader"
    { companyName := "Books", contactName := "Reader", contactEmail := "reader@hakawi"
      description := "Books" }) fun _ => { random := "application" }

def reviews (verdict : Verdict) : Request :=
  .publishers (.reviewApplication "officer" "application"
    { status := verdict, rejectionReason := .value "No books" }) fun _ => {}

def asks (id target : String) : Request := .upgradeAccount id target false (fun _ => 0) fun _ => {}

theorem upgrades_widen_once :
    let requests := [asks "reader" "rising_star", applies, reviews .rejected]
    let before := Trace.run (Request.step .plain .plain) accounts (requests.take 0)
    let after := Trace.run (Request.step .plain .plain) accounts (requests.take 1)
    Honoured before ∧ Widens before.auth after.auth :=
  upgrades_widen (by decide) [asks "reader" "rising_star", applies, reviews .rejected]
    (by decide +kernel) 0

/-- Whose application is approved stays a reader, and a professional who asks to be a rising star
is one. -/
theorem upgrades_narrow :
    let approved := Trace.run (Request.step .plain .plain) accounts [applies, reviews .approved]
    let upgrade := (Auth.UsersService.upgradeAccount .plain "writer" "rising_star" false).run.eval
      (counting fun _ => 0) (fun _ => {}) accounts.auth
    (approved.applications.findByUserId "reader").map (·.status) = some .approved ∧
    ¬ Satisfies approved.auth "reader" .publisher ∧
    upgrade.1.isOk = true ∧ Satisfies accounts.auth "writer" .professional ∧
    ¬ Satisfies upgrade.2 "writer" .professional := by
  decide +kernel

end Examples
end Publishers
