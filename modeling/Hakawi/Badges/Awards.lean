import Hakawi.Badges.Service
import Hakawi.Effects.Pool

/-!
# A badge is awarded once

No index keeps two badges of one rule apart, and the error of the index that keeps two awards
apart comes wrapped, so that who meets it throws. While every badge that is made is the first of
its name and every award that is written the first of its pair, each rule has one badge, each user
one award and one notification of it, and who has the badge already is told so.
-/

namespace Badges
open Common Store Effects

inductive Request where
  | evaluate (userId : String) (trigger : BadgeTriggerEvent)
  | manual (userId badgeKey : String)
  deriving DecidableEq

abbrev Thread : Type := Program Call Call.Answer (Except Exception (List AwardedBadge))

namespace Request

def userId : Request → String
  | evaluate userId _ => userId
  | manual userId _ => userId

def run (wired : Bool) : Request → Thread
  | evaluate userId trigger => (BadgesService.evaluateForUser wired userId trigger).run
  | manual userId badgeKey =>
    ((fun awarded => [awarded]) <$> BadgesService.awardManual wired userId badgeKey).run

end Request

/-- How far an award is. -/
inductive Phase where
  /-- Between two awards; the user has the badge of this rule already. -/
  | idle (owned : Option BadgeRule)
  | missing (rule : BadgeRule)
  | resolved (rule : BadgeRule) (badge : Badge)
  | free (rule : BadgeRule) (badge : Badge)
  /-- The user is yet to be told. -/
  | won (rule : BadgeRule)
  | failed (error : Exception)

/-- What a thread knows, and the awards that it has seen, each with the name it was for. -/
structure Progress where
  request : Request
  phase : Phase := .idle none
  seen : List (String × AwardedBadge) := []

def BadgeRule.new (rule : BadgeRule) : NewBadge where
  name := rule.name
  description := some rule.description
  icon := some rule.icon
  criteria := some rule.badgeKey

def BadgeRule.announcement (rule : BadgeRule) (userId : String) : Notification :=
  BadgesService.announcement userId rule.badgeKey rule.name rule.description

namespace Progress

/-- Between two awards. -/
def Rests (g : Progress) : Prop :=
  match g.phase with
  | .idle _ | .won _ => True
  | _ => False

def ruleNamed (name : String) : Option BadgeRule := BADGE_RULES.find? (·.name = name)

def fails (g : Progress) (error : Exception) : Progress := { g with phase := .failed error }

def after (g : Progress) : (op : Call) → op.Answer → Progress
  | .measure _ _, .ok _ => g
  | .findBadge name, .ok none =>
    { g with phase := match ruleNamed name with
      | some rule => .missing rule
      | none => g.phase }
  | .findBadge name, .ok (some badge) =>
    { g with phase := match ruleNamed name with
      | some rule => .resolved rule badge
      | none => g.phase }
  | .insertBadge _, .ok badge =>
    { g with phase := match g.phase with
      | .missing rule => .resolved rule badge
      | other => other }
  | .findAward _ _, .ok found =>
    { g with phase := match g.phase, found with
      | .resolved rule badge, none => .free rule badge
      | .resolved rule _, some _ => .idle (some rule)
      | other, _ => other }
  | .insertAward _ _, .ok award =>
    match g.phase with
    | .free rule badge =>
      { g with phase := .won rule, seen := g.seen ++ [(rule.name, mapAwarded award badge)] }
    | _ => g
  | .insertAward _ _, .error e =>
    if e.isUniqueViolation then
      match g.phase with
      | .free rule _ => { g with phase := .idle (some rule) }
      | _ => g
    else g.fails e
  | .findUserBadge _ name, .ok (some row) =>
    { g with phase := .idle none, seen := g.seen ++ [(name, mapAwarded row.1 row.2)] }
  | .findUserBadge _ _, .ok none => g.fails BadgesService.badgeNotFound
  | .notify _, _ => { g with phase := .idle none }
  | _, .error e => g.fails e

end Progress

/-- Look for the badge or make it, look for the award or write it, and tell. -/
def awarding : Protocol Call Call.Answer Progress where
  allowed g op := match op with
    | .measure _ _ => g.Rests
    | .findBadge name => g.Rests ∧ ∃ rule ∈ BADGE_RULES, rule.name = name
    | .insertBadge data => ∃ rule ∈ BADGE_RULES, g.phase = .missing rule ∧ data = rule.new
    | .findAward userId badgeId =>
      ∃ rule badge, g.phase = .resolved rule badge ∧ userId = g.request.userId ∧ badgeId = badge.id
    | .insertAward userId badgeId =>
      ∃ rule badge, g.phase = .free rule badge ∧ userId = g.request.userId ∧ badgeId = badge.id
    | .findUserBadge userId name =>
      ∃ rule, g.phase = .idle (some rule) ∧ userId = g.request.userId ∧ name = rule.name
    | .notify notification =>
      ∃ rule, g.phase = .won rule ∧ notification = rule.announcement g.request.userId
  next g op answer := g.after op answer

/-- How a request has ended. -/
def Ended (result : Except Exception (List AwardedBadge)) (g : Progress) : Prop :=
  match result with
  | .error e => g.phase = .failed e ∨ g.phase = .idle none ∧ e = BadgesService.badgeNotFound ∧
      ∃ userId badgeKey, g.request = .manual userId badgeKey ∧
        ∀ rule ∈ BADGE_RULES, rule.badgeKey ≠ badgeKey
  | .ok awards => g.Rests ∧ (∀ awarded ∈ awards, ∃ name, (name, awarded) ∈ g.seen) ∧
      ∀ userId badgeKey, g.request = .manual userId badgeKey →
        ∃ rule ∈ BADGE_RULES, rule.badgeKey = badgeKey ∧
          ∃ awarded, awards = [awarded] ∧ (rule.name, awarded) ∈ g.seen

section Following

theorem after_request (g : Progress) (op : Call) (answer : op.Answer) :
    (awarding.next g op answer).request = g.request := by
  obtain ⟨request, phase, seen⟩ := g
  cases op with
  | measure | insertBadge | findAward | notify => cases answer <;> rfl
  | findBadge | findUserBadge =>
    cases answer with
    | error e => rfl
    | ok found => cases found <;> rfl
  | insertAward userId badgeId =>
    cases answer with
    | ok award => cases phase <;> rfl
    | error e =>
      by_cases lost : e.isUniqueViolation
      · cases phase <;> simp [awarding, Progress.after, lost]
      · simp [awarding, Progress.after, lost, Progress.fails]

theorem names_nodup : (BADGE_RULES.map (·.name)).Nodup := by decide

theorem ruleNamed_name {rule : BadgeRule} (member : rule ∈ BADGE_RULES) :
    Progress.ruleNamed rule.name = some rule := by
  cases found : Progress.ruleNamed rule.name with
  | none =>
    have absent := List.find?_eq_none.mp found rule member
    simp at absent
  | some other =>
    have named : other.name = rule.name := by simpa using List.find?_some found
    rw [List.inj_on_of_nodup_map names_nodup (List.mem_of_find?_eq_some found) member named]

variable {α β : Type} {g : Progress}

theorem wpE_awarding {op : Call} {next : op.Value → Method β}
    {Q : Except Exception β → Progress → Prop} (allowed : awarding.allowed g op)
    (thrown : ∀ e, Q (.error e) (awarding.next g op (.error e)))
    (goes : ∀ value, wpE awarding.spec (next value) Q (awarding.next g op (.ok value))) :
    wpE awarding.spec (call op >>= next) Q g := by
  rw [wpE_bind]
  refine ⟨allowed, fun answer => ?_⟩
  cases answer with
  | error e => exact thrown e
  | ok value => exact goes value

/-- What an award comes to: the badge, or that the user has it. -/
def Awards (request : Request) (seen : List (String × AwardedBadge)) (rule : BadgeRule)
    (result : Except Exception (Option AwardedBadge)) (g : Progress) : Prop :=
  g.request = request ∧ match result with
    | .error e => g.phase = .failed e
    | .ok none => g.phase = .idle (some rule) ∧ g.seen = seen
    | .ok (some awarded) => g.Rests ∧ g.seen = seen ++ [(rule.name, awarded)]

variable (wired : Bool) (request : Request) (seen : List (String × AwardedBadge))

theorem announceAward_awards (rule : BadgeRule) (awarded : AwardedBadge) :
    wpE awarding.spec (do
      BadgesService.announceAward wired request.userId rule.badgeKey rule.name rule.description
      return some awarded) (Awards request seen rule)
      ⟨request, .won rule, seen ++ [(rule.name, awarded)]⟩ := by
  rw [BadgesService.announceAward]
  split
  · exact ⟨rfl, trivial, rfl⟩
  · rw [wpE_bind, wpE_tryCatch]
    refine ⟨⟨rule, rfl, rfl⟩, fun answer => ?_⟩
    cases answer with
    | error e => exact ⟨rfl, trivial, rfl⟩
    | ok u => exact ⟨rfl, trivial, rfl⟩

/-- Once the badge is there. -/
theorem awardBadge_awards (rule : BadgeRule) (badge : Badge) :
    wpE awarding.spec (BadgesService.awardBadge wired request.userId rule.badgeKey rule.name
      rule.description badge) (Awards request seen rule) ⟨request, .resolved rule badge, seen⟩ := by
  rw [BadgesService.awardBadge]
  refine wpE_awarding ⟨rule, badge, rfl, rfl, rfl⟩ (fun e => ⟨rfl, rfl⟩) fun found => ?_
  cases found with
  | some id => exact ⟨rfl, rfl, rfl⟩
  | none =>
    dsimp only
    rw [wpE_bind, BadgesService.insertAward, wpE_tryCatch, wpE_map]
    refine ⟨⟨rule, badge, rfl, rfl, rfl⟩, fun answer => ?_⟩
    cases answer with
    | ok inserted => exact announceAward_awards wired request seen rule (mapAwarded inserted badge)
    | error e =>
      simp only [Program.wp_done, Except.map, wpE_ite]
      by_cases lost : e.isUniqueViolation
      · rw [if_pos lost]
        refine ⟨?_, ?_⟩ <;> simp [awarding, Progress.after, lost]
      · rw [if_neg lost]
        refine ⟨?_, ?_⟩ <;> simp [awarding, Progress.after, lost, Progress.fails]

theorem award_awards {g : Progress} (rests : g.Rests) {rule : BadgeRule}
    (member : rule ∈ BADGE_RULES) :
    wpE awarding.spec (BadgesService.award wired g.request.userId rule.badgeKey rule.name
      rule.description rule.icon) (Awards g.request g.seen rule) g := by
  rw [BadgesService.award, wpE_bind, BadgesService.resolveBadge]
  refine wpE_awarding ⟨rests, rule, member, rfl⟩ (fun e => ⟨rfl, rfl⟩) fun found => ?_
  cases found with
  | some badge =>
    have next : awarding.next g (.findBadge rule.name) (.ok (some badge)) =
        ⟨g.request, .resolved rule badge, g.seen⟩ := by
      simp only [awarding, Progress.after, ruleNamed_name member]
    rw [next]
    exact awardBadge_awards wired g.request g.seen rule badge
  | none =>
    have next : awarding.next g (.findBadge rule.name) (.ok none) =
        ⟨g.request, .missing rule, g.seen⟩ := by
      simp only [awarding, Progress.after, ruleNamed_name member]
    rw [next]
    refine ⟨⟨rule, member, rfl, rfl⟩, fun answer => ?_⟩
    cases answer with
    | error e => exact ⟨rfl, rfl⟩
    | ok badge => exact awardBadge_awards wired g.request g.seen rule badge

/-- All awards that were collected have been seen, and the thread is between two awards. -/
def Collected (request : Request) (result : Except Exception (List AwardedBadge)) (g : Progress) :
    Prop :=
  g.request = request ∧ match result with
    | .error e => g.phase = .failed e
    | .ok awards => g.Rests ∧ ∀ awarded ∈ awards, ∃ name, (name, awarded) ∈ g.seen

theorem awarding_monotone : awarding.spec.Monotone := awarding.spec_monotone

theorem evaluateRule_collects {g : Progress} {awarded : List AwardedBadge}
    (collected : Collected g.request (.ok awarded) g) {rule : BadgeRule}
    (member : rule ∈ BADGE_RULES) :
    wpE awarding.spec (BadgesService.evaluateRule wired g.request.userId awarded rule)
      (Collected g.request) g := by
  obtain ⟨-, rests, known⟩ := collected
  rw [BadgesService.evaluateRule]
  refine wpE_awarding rests (fun e => ⟨rfl, rfl⟩) fun value => ?_
  rw [wpE_ite]
  split
  · exact ⟨rfl, rests, known⟩
  · refine wpE_seq awarding_monotone (award_awards wired rests member)
      (fun e y failed => failed) fun result y ended => ?_
    obtain ⟨same, ended⟩ := ended
    cases result with
    | none =>
      refine ⟨same, ?_, fun award old => ?_⟩
      · rw [Progress.Rests, ended.1]
        trivial
      · rw [ended.2]
        exact known award old
    | some result =>
      refine ⟨same, ended.1, fun award member => ?_⟩
      rw [ended.2]
      rcases List.mem_append.mp member with old | new
      · obtain ⟨name, seen⟩ := known award old
        exact ⟨name, List.mem_append_left _ seen⟩
      · rw [List.mem_singleton.mp new]
        exact ⟨rule.name, List.mem_append_right _ (List.mem_singleton.mpr rfl)⟩

theorem evaluate_collects (rules : List BadgeRule) (within : ∀ rule ∈ rules, rule ∈ BADGE_RULES)
    {g : Progress} {awarded : List AwardedBadge} (collected : Collected g.request (.ok awarded) g) :
    wpE awarding.spec (rules.foldlM (BadgesService.evaluateRule wired g.request.userId) awarded)
      (Collected g.request) g := by
  induction rules generalizing g awarded with
  | nil => exact collected
  | cons rule rest ih =>
    rw [List.foldlM_cons]
    refine wpE_seq awarding_monotone
      (evaluateRule_collects wired collected (within rule List.mem_cons_self))
      (fun e y failed => failed) fun awarded' y collected' => ?_
    have same : y.request = g.request := collected'.1
    rw [← same] at collected' ⊢
    exact ih (fun other member => within other (List.mem_cons_of_mem rule member)) collected'

theorem manual_ends (userId badgeKey : String) :
    wpE awarding.spec
      ((fun awarded => [awarded]) <$> BadgesService.awardManual wired userId badgeKey) Ended
      { request := .manual userId badgeKey } := by
  rw [wpE_map, BadgesService.awardManual]
  cases found : BADGE_RULES.find? (·.badgeKey = badgeKey) with
  | none =>
    refine Or.inr ⟨rfl, rfl, userId, badgeKey, rfl, fun rule member => ?_⟩
    simpa using List.find?_eq_none.mp found rule member
  | some rule =>
    have member := List.mem_of_find?_eq_some found
    have key : rule.badgeKey = badgeKey := by simpa using List.find?_some found
    have start : ({ request := .manual userId badgeKey } : Progress).Rests := trivial
    refine wpE_seq awarding_monotone (award_awards wired start member)
      (fun e y failed => Or.inl failed.2) fun result y ended => ?_
    obtain ⟨same, ended⟩ := ended
    cases result with
    | some awarded =>
      have seen : (rule.name, awarded) ∈ y.seen := by
        rw [ended.2]
        exact List.mem_append_right _ (List.mem_singleton.mpr rfl)
      refine ⟨ended.1, fun award member => ?_, fun userId' badgeKey' asked => ?_⟩
      · rw [List.mem_singleton.mp member]
        exact ⟨rule.name, seen⟩
      · cases same.symm.trans asked
        exact ⟨rule, member, key, awarded, rfl, seen⟩
    | none =>
      rw [key]
      change wpE awarding.spec (BadgesService.findByUserAndKey userId badgeKey) _ y
      rw [BadgesService.findByUserAndKey, found]
      have mine : userId = y.request.userId := by rw [same]; rfl
      refine wpE_awarding ⟨rule, ended.1, mine, rfl⟩ (fun e => Or.inl rfl) fun row => ?_
      cases row with
      | none => exact Or.inl rfl
      | some row =>
        have seen : (rule.name, mapAwarded row.1 row.2) ∈
            (awarding.next y (.findUserBadge userId rule.name) (.ok (some row))).seen :=
          List.mem_append_right _ (List.mem_singleton.mpr rfl)
        refine ⟨trivial, fun award member => ?_, fun userId' badgeKey' asked => ?_⟩
        · rw [List.mem_singleton.mp member]
          exact ⟨rule.name, seen⟩
        · cases same.symm.trans asked
          exact ⟨rule, member, key, _, rfl, seen⟩

theorem request_reaches (request : Request) :
    awarding.Reaches Ended { request } (request.run wired) := by
  cases request with
  | evaluate userId trigger =>
    have begun : Collected (.evaluate userId trigger) (.ok [])
        { request := .evaluate userId trigger } :=
      ⟨rfl, trivial, fun _ member => by cases member⟩
    have collects : wpE awarding.spec
        ((rulesForTrigger trigger).foldlM (BadgesService.evaluateRule wired userId) [])
        (Collected (.evaluate userId trigger)) { request := .evaluate userId trigger } :=
      evaluate_collects wired (rulesForTrigger trigger)
        (fun rule member => (List.mem_filter.mp member).1) begun
    refine Program.wp_mono awarding_monotone (fun result y ended => ?_) collects
    cases result with
    | error e => exact Or.inl ended.2
    | ok awards =>
      refine ⟨ended.2.1, ended.2.2, fun userId' badgeKey asked => ?_⟩
      cases ended.1.symm.trans asked
  | manual userId badgeKey => exact manual_ends wired userId badgeKey

end Following

section Invariant

/-- One of the rows is the award of a user, of a badge of this name. -/
def Granted (world : World) (userId name : String) (awarded : AwardedBadge) : Prop :=
  ∃ award ∈ world.userBadges.rows, ∃ badge ∈ world.badges.rows, award.userId = userId ∧
    award.badgeId = badge.id ∧ badge.name = name ∧ awarded = mapAwarded award badge

def Holds (world : World) (userId name : String) : Prop :=
  ∃ awarded, Granted world userId name awarded

/-- How often a user was told of the award of a rule. -/
def told (world : World) (userId : String) (rule : BadgeRule) : Nat :=
  world.notifications.count (rule.announcement userId)

/-- A rule has one badge. -/
def Single (world : World) : Prop :=
  ∀ rule ∈ BADGE_RULES, ∀ badge ∈ world.badges.rows, ∀ other ∈ world.badges.rows,
    badge.name = rule.name → other.name = rule.name → badge = other

/-- Whether a thread has an award to tell of. -/
def owes (userId : String) (rule : BadgeRule) (g : Progress) : Bool :=
  match g.phase with
  | .won other => g.request.userId = userId ∧ other = rule
  | _ => false

/-- What a thread that is not done has to go by. -/
def Knows (world : World) (g : Progress) : Prop :=
  (∀ seen ∈ g.seen, Granted world g.request.userId seen.1 seen.2) ∧
  match g.phase with
  | .idle none => True
  | .idle (some rule) => Holds world g.request.userId rule.name
  | .missing rule => rule ∈ BADGE_RULES
  | .resolved rule badge | .free rule badge =>
    rule ∈ BADGE_RULES ∧ badge ∈ world.badges.rows ∧ badge.name = rule.name
  | .won rule => rule ∈ BADGE_RULES
  | .failed error => g.request.userId ∉ world.users ∧
      ∀ constraint, error ≠ .drizzle (.uniqueViolation constraint)

structure Consistent (users : List String) (world : World) (memory : List Progress) : Prop where
  users : world.users = users
  single : Single world
  /-- Nobody is told twice, nor of an award that was not written. -/
  told : ∀ userId, ∀ rule ∈ BADGE_RULES,
    told world userId rule + memory.countP (owes userId rule) ≤ 1 ∧
    (¬ Holds world userId rule.name →
      told world userId rule + memory.countP (owes userId rule) = 0)
  knows : ∀ g ∈ memory, Knows world g

/-- Rows are added, and none is lost. -/
structure Grows (before after : World) : Prop where
  users : after.users = before.users
  badges : before.badges.rows ⊆ after.badges.rows
  awards : before.userBadges.rows ⊆ after.userBadges.rows

variable {world : World} {choice : Choice}

theorem Granted.grows {before after : World} (grows : Grows before after) {userId name : String}
    {awarded : AwardedBadge} (granted : Granted before userId name awarded) :
    Granted after userId name awarded := by
  obtain ⟨award, present, badge, known, facts⟩ := granted
  exact ⟨award, grows.awards present, badge, grows.badges known, facts⟩

theorem Holds.grows {before after : World} (grows : Grows before after) {userId name : String}
    (holds : Holds before userId name) : Holds after userId name := by
  obtain ⟨awarded, granted⟩ := holds
  exact ⟨awarded, granted.grows grows⟩

theorem Knows.grows {before after : World} (grows : Grows before after) {g : Progress}
    (knows : Knows before g) : Knows after g := by
  obtain ⟨seen, phase⟩ := knows
  refine ⟨fun s member => (seen s member).grows grows, ?_⟩
  obtain ⟨request, phase', seen'⟩ := g
  cases phase' with
  | idle owned =>
    cases owned with
    | none => trivial
    | some rule => exact Holds.grows grows phase
  | missing rule => exact phase
  | resolved rule badge => exact ⟨phase.1, grows.badges phase.2.1, phase.2.2⟩
  | free rule badge => exact ⟨phase.1, grows.badges phase.2.1, phase.2.2⟩
  | won rule => exact phase
  | failed error => exact ⟨grows.users ▸ phase.1, phase.2⟩

/-- The ways in which an insert of an award ends. -/
theorem insertAward_cases (world : World) (userId : String) (badgeId : Nat) :
    (world.insertAward userId badgeId = .error (.uniqueViolation "user_badges_unique_idx") ∧
      ∃ award ∈ world.userBadges.rows, award.pair = (userId, badgeId)) ∨
    ((userId ∉ world.users ∨ world.badges.find? badgeId = none) ∧
      world.insertAward userId badgeId = .error (.failed (some "23503"))) ∨
    ∃ row after, world.insertAward userId badgeId = .ok (row, after) ∧
      row.pair = (userId, badgeId) ∧ after.users = world.users ∧ after.badges = world.badges ∧
      after.notifications = world.notifications ∧
      after.userBadges.rows = world.userBadges.rows ++ [row] := by
  rw [World.insertAward]
  split
  · rename_i refused
    left
    refine ⟨rfl, ?_⟩
    obtain ⟨award, found⟩ := Option.isSome_iff_exists.mp (Indexed.insert?_eq_none_iff.mp refused)
    obtain ⟨member, pair⟩ := Indexed.findBy?_eq_some_iff.mp found
    exact ⟨award, member, pair⟩
  · rename_i userBadges inserted
    have rows := congrArg Table.rows (Indexed.toTable_of_insert? inserted)
    split
    · exact Or.inr (Or.inr ⟨_, _, rfl, rfl, rfl, rfl, rfl, rows⟩)
    · rename_i absent
      refine Or.inr (Or.inl ⟨?_, rfl⟩)
      by_cases user : userId ∈ world.users
      · right
        simpa [user] using absent
      · exact Or.inl user

/-- A pair that is there is refused. -/
theorem insertAward_taken {userId : String} {badgeId : Nat} {award : UserBadge}
    (present : award ∈ world.userBadges.rows) (pair : award.pair = (userId, badgeId)) :
    world.insertAward userId badgeId = .error (.uniqueViolation "user_badges_unique_idx") := by
  rcases insertAward_cases world userId badgeId with ⟨e, -⟩ | ⟨-, e⟩ | ⟨row, after, e, facts⟩
  · exact e
  all_goals
    rw [World.insertAward] at e
    have found := Indexed.findBy?_eq_some_iff.mpr ⟨present, pair⟩
    have refused : world.userBadges.insert? (fun id => ⟨id, userId, badgeId, world.clock⟩)
        (fun _ => rfl) = none :=
      Indexed.insert?_eq_none_iff.mpr (by
        rw [show UserBadge.pair _ = (userId, badgeId) from rfl, found]
        rfl)
    rw [refused] at e
    cases e

theorem perform_grows (choice : Choice) (world : World) (op : Call) :
    Grows world (world.perform choice op).2 := by
  have same : Grows world world := ⟨rfl, List.Subset.refl _, List.Subset.refl _⟩
  cases op with
  | measure | findBadge | findAward | findUserBadge => exact same
  | insertBadge data => exact ⟨rfl, List.subset_append_left _ _, List.Subset.refl _⟩
  | insertAward userId badgeId =>
    rw [World.perform]
    rcases insertAward_cases world userId badgeId with ⟨e, -⟩ | ⟨-, e⟩ | ⟨row, after, e, facts⟩
    · rw [e]
      exact same
    · rw [e]
      exact same
    · rw [e]
      obtain ⟨-, users, badges, -, rows⟩ := facts
      refine ⟨users, ?_, ?_⟩
      · rw [badges]
        exact List.Subset.refl _
      · rw [rows]
        exact List.subset_append_left _ _
  | notify notification => exact ⟨rfl, List.Subset.refl _, List.Subset.refl _⟩

theorem exec_grows (choice : Choice) (world : World) (op : Call) :
    Grows world (exec choice world op).2 := by
  have same : Grows world (world.later choice.elapsed) :=
    ⟨rfl, List.Subset.refl _, List.Subset.refl _⟩
  have carried := perform_grows choice (world.later choice.elapsed) op
  rw [exec]
  split
  · exact same
  · exact ⟨carried.users, carried.badges, carried.awards⟩
  · exact ⟨carried.users, carried.badges, carried.awards⟩

/-- A call is carried out; to tell a user may fail. -/
def Carried (choice : Choice) (op : Call) : Prop :=
  choice.outcome = .performed ∨ match op with
    | .notify _ => True
    | _ => False

instance (choice : Choice) (op : Call) : Decidable (Carried choice op) := by
  unfold Carried
  cases op <;> infer_instance

/-- A badge that is made is the first of its name, and an award that is written of its pair. -/
def Unraced (world : World) : Call → Prop
  | .insertBadge data => ∀ badge ∈ world.badges.rows, badge.name ≠ data.name
  | .insertAward userId badgeId => ∀ award ∈ world.userBadges.rows, award.pair ≠ (userId, badgeId)
  | _ => True

instance (world : World) (op : Call) : Decidable (Unraced world op) := by
  cases op <;> unfold Unraced <;> infer_instance

theorem exec_performed (performed : choice.outcome = .performed) (op : Call) :
    exec choice world op = (world.later choice.elapsed).perform choice op := by
  rw [exec, performed]

theorem mem_joined {userId name : String} {row : UserBadge × Badge} :
    row ∈ world.joined userId name ↔ row.1 ∈ world.userBadges.rows ∧
      row.2 ∈ world.badges.rows ∧ row.2.id = row.1.badgeId ∧ row.1.userId = userId ∧
      row.2.name = name := by
  obtain ⟨award, badge⟩ := row
  simp [World.joined, List.mem_flatMap, List.mem_map, List.mem_filter]

/-- What a thread knows after a call of its own. -/
theorem knows_next {g : Progress} {op : Call} (knows : Knows world g)
    (allowed : awarding.allowed g op) (carried : Carried choice op) (unraced : Unraced world op) :
    Knows (exec choice world op).2 (awarding.next g op (exec choice world op).1) := by
  have grows := exec_grows choice world op
  obtain ⟨seen, phase⟩ := knows.grows grows
  have before := knows.2
  obtain ⟨request, phase', awards⟩ := g
  cases op with
  | measure userId metric =>
    have performed : choice.outcome = .performed := carried.resolve_right id
    rw [exec_performed performed] at seen phase ⊢
    exact ⟨seen, phase⟩
  | findBadge name =>
    have performed : choice.outcome = .performed := carried.resolve_right id
    obtain ⟨-, rule, member, rfl⟩ := allowed
    rw [exec_performed performed] at seen phase ⊢
    dsimp only [World.perform]
    cases found : limitOne (((world.later choice.elapsed).badges.rows).filter
        (·.name = rule.name)) choice.pick with
    | none =>
      refine ⟨seen, ?_⟩
      simpa only [awarding, Progress.after, ruleNamed_name member] using member
    | some badge =>
      obtain ⟨present, named⟩ := List.mem_filter.mp (mem_of_limitOne found)
      refine ⟨seen, ?_⟩
      simpa only [awarding, Progress.after, ruleNamed_name member] using
        ⟨member, present, by simpa using named⟩
  | insertBadge data =>
    have performed : choice.outcome = .performed := carried.resolve_right id
    obtain ⟨rule, -, missing, rfl⟩ := allowed
    cases (missing : phase' = .missing rule)
    rw [exec_performed performed] at seen phase ⊢
    exact ⟨seen, phase, List.mem_append_right _ (List.mem_singleton.mpr rfl), rfl⟩
  | findAward userId badgeId =>
    have performed : choice.outcome = .performed := carried.resolve_right id
    obtain ⟨rule, badge, resolved, rfl, rfl⟩ := allowed
    cases (resolved : phase' = .resolved rule badge)
    rw [exec_performed performed] at seen phase ⊢
    dsimp only [World.perform]
    cases found : (world.later choice.elapsed).userBadges.findBy? (request.userId, badge.id) with
    | none => exact ⟨seen, phase⟩
    | some award =>
      obtain ⟨member, pair⟩ := Indexed.findBy?_eq_some_iff.mp found
      have owner : award.userId = request.userId := congrArg Prod.fst pair
      have badgeId : award.badgeId = badge.id := congrArg Prod.snd pair
      exact ⟨seen, _, award, member, badge, phase.2.1, owner, badgeId, phase.2.2, rfl⟩
  | insertAward userId badgeId =>
    have performed : choice.outcome = .performed := carried.resolve_right id
    obtain ⟨rule, badge, free, rfl, rfl⟩ := allowed
    cases (free : phase' = .free rule badge)
    rw [exec_performed performed, World.perform] at seen phase ⊢
    rcases insertAward_cases (world.later choice.elapsed) request.userId badge.id with
      ⟨-, award, member, pair⟩ | ⟨absent, e⟩ | ⟨row, after, e, pair, users, badges, -, rows⟩
    · exact absurd pair (unraced award member)
    · rw [e] at seen phase ⊢
      refine ⟨seen, ?_, fun constraint same => by cases same⟩
      refine absent.resolve_right fun none => ?_
      exact Table.find?_eq_none_iff.mp none badge before.2.1 rfl
    · rw [e] at seen phase ⊢
      refine ⟨fun s member => ?_, before.1⟩
      rcases List.mem_append.mp member with old | new
      · exact seen s old
      · rw [List.mem_singleton.mp new]
        refine ⟨row, ?_, badge, phase.2.1, congrArg Prod.fst pair, congrArg Prod.snd pair,
          phase.2.2, rfl⟩
        rw [rows]
        exact List.mem_append_right _ (List.mem_singleton.mpr rfl)
  | findUserBadge userId name =>
    have performed : choice.outcome = .performed := carried.resolve_right id
    obtain ⟨rule, owned, rfl, rfl⟩ := allowed
    cases (owned : phase' = .idle (some rule))
    rw [exec_performed performed] at seen phase ⊢
    obtain ⟨-, award, present, badge, known, owner, badgeId, named, rfl⟩ := phase
    have joined : (award, badge) ∈ (world.later choice.elapsed).joined request.userId rule.name :=
      mem_joined.mpr ⟨present, known, badgeId.symm, owner, named⟩
    obtain ⟨first, found⟩ := limitOne_isSome joined choice.pick
    obtain ⟨present', known', badgeId', owner', named'⟩ := mem_joined.mp (mem_of_limitOne found)
    dsimp only [World.perform]
    rw [found]
    refine ⟨fun s member => ?_, trivial⟩
    rcases List.mem_append.mp member with old | new
    · exact seen s old
    · rw [List.mem_singleton.mp new]
      exact ⟨first.1, present', first.2, known', owner', badgeId'.symm, named', rfl⟩
  | notify notification =>
    refine ⟨?_, ?_⟩
    · cases (exec choice world (.notify notification)).1 <;> exact seen
    · cases (exec choice world (.notify notification)).1 <;> trivial

theorem single_next {op : Call} (single : Single world) (unraced : Unraced world op) :
    Single (exec choice world op).2 := by
  have still (before after : World) (same : after.badges = before.badges)
      (single : Single before) : Single after := by
    rw [Single, same]
    exact single
  have carried : Single ((world.later choice.elapsed).perform choice op).2 := by
    cases op with
    | measure | findBadge | findAward | findUserBadge | notify => exact single
    | insertBadge data =>
      intro rule member badge known other known' named named'
      rcases List.mem_append.mp known with old | new <;>
        rcases List.mem_append.mp known' with old' | new'
      · exact single rule member badge old other old' named named'
      · rw [List.mem_singleton.mp new'] at named'
        exact absurd (named.trans named'.symm) (unraced badge old)
      · rw [List.mem_singleton.mp new] at named
        exact absurd (named'.trans named.symm) (unraced other old')
      · rw [List.mem_singleton.mp new, List.mem_singleton.mp new']
    | insertAward userId badgeId =>
      rw [World.perform]
      rcases insertAward_cases (world.later choice.elapsed) userId badgeId with
        ⟨e, -⟩ | ⟨-, e⟩ | ⟨row, after, e, -, -, badges, -, -⟩
      · rw [e]
        exact single
      · rw [e]
        exact single
      · rw [e]
        exact still world after badges single
  rw [exec]
  split
  · exact single
  · exact carried
  · exact carried

theorem exec_notifications {op : Call} (other : ∀ notification, op ≠ .notify notification) :
    (exec choice world op).2.notifications = world.notifications := by
  have carried : ((world.later choice.elapsed).perform choice op).2.notifications =
      world.notifications := by
    cases op with
    | measure | findBadge | findAward | findUserBadge | insertBadge => rfl
    | insertAward userId badgeId =>
      rw [World.perform]
      rcases insertAward_cases (world.later choice.elapsed) userId badgeId with
        ⟨e, -⟩ | ⟨-, e⟩ | ⟨row, after, e, -, -, -, same, -⟩
      · rw [e]
        rfl
      · rw [e]
        rfl
      · rw [e]
        exact same
    | notify notification => exact absurd rfl (other notification)
  rw [exec]
  split
  · rfl
  · exact carried
  · exact carried

theorem told_notify (userId : String) (rule : BadgeRule) (notification : Notification) :
    told (exec choice world (.notify notification)).2 userId rule ≤
      told world userId rule + if notification = rule.announcement userId then 1 else 0 := by
  rw [exec]
  split
  · exact Nat.le_add_right _ _
  all_goals
    simp only [told, World.perform, World.later, List.count_append, List.count_singleton,
      beq_iff_eq]
    exact Nat.le_refl _

theorem announcement_injective {rule other : BadgeRule} {userId userId' : String}
    (member : rule ∈ BADGE_RULES) (member' : other ∈ BADGE_RULES)
    (same : rule.announcement userId = other.announcement userId') :
    userId = userId' ∧ rule = other := by
  have titles : ∀ rule ∈ BADGE_RULES, ∀ other ∈ BADGE_RULES,
      s!"Badge earned: {rule.name}" = s!"Badge earned: {other.name}" → rule = other := by
    decide
  exact ⟨congrArg Notification.userId same,
    titles rule member other member' (congrArg Notification.title same)⟩

theorem owes_iff {userId : String} {rule : BadgeRule} {g : Progress} :
    owes userId rule g = true ↔ g.phase = .won rule ∧ g.request.userId = userId := by
  obtain ⟨request, phase, seen⟩ := g
  cases phase <;> simp [owes, and_comm]

/-- Only who writes an award comes to owe a notification. -/
theorem owes_next {g : Progress} {op : Call} {answer : op.Answer} {userId : String}
    {rule : BadgeRule} (allowed : awarding.allowed g op)
    (owed : owes userId rule (awarding.next g op answer) = true) :
    owes userId rule g = true ∨ g.request.userId = userId ∧
      ∃ badge, g.phase = .free rule badge ∧ op = .insertAward userId badge.id ∧
        answer.isOk = true := by
  obtain ⟨request, phase, seen⟩ := g
  obtain ⟨won, owner⟩ := owes_iff.mp owed
  cases op with
  | measure metric =>
    cases answer with
    | error e => cases won
    | ok count => exact Or.inl owed
  | findBadge name =>
    obtain ⟨-, other, member, rfl⟩ := allowed
    cases answer with
    | error e => cases won
    | ok found => cases found <;> simp [awarding, Progress.after, ruleNamed_name member] at won
  | insertBadge data =>
    obtain ⟨other, -, missing, rfl⟩ := allowed
    cases (missing : phase = .missing other)
    cases answer <;> cases won
  | findAward userId' badgeId =>
    obtain ⟨other, badge, resolved, rfl, rfl⟩ := allowed
    cases (resolved : phase = .resolved other badge)
    cases answer with
    | error e => cases won
    | ok found => cases found <;> cases won
  | insertAward userId' badgeId =>
    obtain ⟨other, badge, free, rfl, rfl⟩ := allowed
    cases (free : phase = .free other badge)
    cases answer with
    | error e =>
      simp only [awarding, Progress.after] at won
      split at won <;> cases won
    | ok award =>
      cases won
      have mine : request.userId = userId := owner
      exact Or.inr ⟨mine, badge, rfl, by rw [← mine], rfl⟩
  | findUserBadge userId' name =>
    cases answer with
    | error e => cases won
    | ok found => cases found <;> cases won
  | notify notification => cases answer <;> cases won

/-- What users are told and yet to be told grows with the awards only. -/
theorem told_next {memory : List Progress} {i : Nat} {g : Progress} {op : Call}
    (remembers : memory[i]? = some g) (single : Single world) (knows : Knows world g)
    (allowed : awarding.allowed g op) (carried : Carried choice op) (unraced : Unraced world op)
    (userId : String) {rule : BadgeRule} (member : rule ∈ BADGE_RULES) :
    let after := (exec choice world op).2
    let g' := awarding.next g op (exec choice world op).1
    told after userId rule + (memory.set i g').countP (owes userId rule) ≤
        told world userId rule + memory.countP (owes userId rule) ∨
      told after userId rule + (memory.set i g').countP (owes userId rule) ≤
          told world userId rule + memory.countP (owes userId rule) + 1 ∧
        ¬ Holds world userId rule.name ∧ Holds after userId rule.name := by
  intro after g'
  have counted := Pool.countP_set_of_some (owes userId rule) remembers g'
  by_cases notifies : ∃ notification, op = .notify notification
  · left
    obtain ⟨notification, rfl⟩ := notifies
    obtain ⟨other, won, rfl⟩ := allowed
    have later : told after userId rule ≤ _ := told_notify userId rule _
    have idle : owes userId rule g' = false := by
      cases owed : owes userId rule g' with
      | false => rfl
      | true =>
        obtain ⟨won', -⟩ := owes_iff.mp owed
        simp only [g', awarding] at won'
        cases (exec choice world (.notify (other.announcement g.request.userId))).1 <;> cases won'
    have known : other ∈ BADGE_RULES := by
      have known := knows.2
      rw [won] at known
      exact known
    rw [idle] at counted
    by_cases same : other.announcement g.request.userId = rule.announcement userId
    · obtain ⟨owner, rfl⟩ := announcement_injective known member same
      have owed : owes userId other g = true := owes_iff.mpr ⟨won, owner⟩
      rw [owed] at counted
      rw [if_pos same] at later
      simp only [if_true, Bool.false_eq_true, if_false] at counted
      omega
    · rw [if_neg same] at later
      simp only [Bool.false_eq_true, if_false] at counted
      omega
  · have quiet : told after userId rule = told world userId rule := by
      rw [told, told, exec_notifications fun notification same => notifies ⟨notification, same⟩]
    rw [quiet]
    by_cases owed : owes userId rule g' = true
    · rcases owes_next allowed owed with before | ⟨owner, badge, free, rfl, written⟩
      · left
        rw [owed, before] at counted
        omega
      · right
        refine ⟨by split at counted <;> omega, ?_, ?_⟩
        · rintro ⟨awarded, award, present, badge', known', owner', badgeId, named, -⟩
          have facts := knows.2
          rw [free] at facts
          have same := single rule member badge' known' badge facts.2.1 named facts.2.2
          subst same
          exact unraced award present (by rw [UserBadge.pair, owner', badgeId])
        · have seen := (knows_next knows allowed carried unraced).1
          cases answered : (exec choice world (.insertAward userId badge.id)).1 with
          | error e =>
            rw [answered] at written
            cases written
          | ok award =>
            rw [answered] at seen
            have granted := seen (rule.name, mapAwarded award badge)
              (by simp [awarding, Progress.after, free])
            have owner' : (awarding.next g (.insertAward userId badge.id)
                (.ok award)).request.userId = userId := by
              simpa [awarding, Progress.after, free] using owner
            rw [owner'] at granted
            exact ⟨_, granted⟩
    · left
      simp only [owed, Bool.false_eq_true, if_false] at counted
      split at counted <;> omega

theorem consistent_preserves (users : List String) :
    Pool.Preserves exec awarding
      (fun choice world _ op => Carried choice op ∧ Unraced world op) (Consistent users) := by
  intro choice world memory i g op remembers consistent allowed ⟨carried, unraced⟩
  have knows := consistent.knows g (List.mem_of_getElem? remembers)
  have grows := exec_grows choice world op
  refine ⟨grows.users.trans consistent.users, single_next consistent.single unraced,
    fun userId rule member => ?_, ?_⟩
  · obtain ⟨atMost, unheld⟩ := consistent.told userId rule member
    rcases told_next remembers consistent.single knows allowed carried unraced userId member with
      fewer | ⟨more, before, after⟩
    · refine ⟨fewer.trans atMost, fun absent => ?_⟩
      have none := unheld fun holds => absent (holds.grows grows)
      omega
    · have none := unheld before
      exact ⟨by omega, fun absent => absurd after absent⟩
  · refine Pool.forall_mem_set (fun other member => ?_)
      (knows_next knows allowed carried unraced)
    exact (consistent.knows other member).grows grows

end Invariant

section Runs

abbrev Awarding : Type :=
  Pool World Call Call.Answer (Except Exception (List AwardedBadge))

def serving (wired : Bool) (start : World) (requests : List Request) : Awarding :=
  ⟨start, requests.map (·.run wired)⟩

/-- An award that a user has of a rule. -/
def Request.Answers (request : Request) (world : World) :
    Except Exception (List AwardedBadge) → Prop
  | .error e => e = BadgesService.badgeNotFound ∧ ∃ userId badgeKey,
      request = .manual userId badgeKey ∧ ∀ rule ∈ BADGE_RULES, rule.badgeKey ≠ badgeKey
  | .ok awards => (∀ awarded ∈ awards, ∃ name, Granted world request.userId name awarded) ∧
      ∀ userId badgeKey, request = .manual userId badgeKey →
        ∃ rule ∈ BADGE_RULES, rule.badgeKey = badgeKey ∧
          ∃ awarded, awards = [awarded] ∧ Granted world userId rule.name awarded

/-- Every rule has one badge, and every user one award and one notification of it; no request
ends with a lost race, and those of users answer with what the user has. -/
structure OncePerRule (requests : List Request) (pool : Awarding) : Prop where
  single : Single pool.state
  awards : ∀ userId, ∀ rule ∈ BADGE_RULES, ∀ awarded other,
    Granted pool.state userId rule.name awarded → Granted pool.state userId rule.name other →
      awarded = other
  told : ∀ userId, ∀ rule ∈ BADGE_RULES, told pool.state userId rule ≤ 1
  unraced : ∀ i constraint, pool.result? i ≠ some (.error (.drizzle (.uniqueViolation constraint)))
  answers : ∀ i request result, requests[i]? = some request → pool.result? i = some result →
    request.userId ∈ pool.state.users → request.Answers pool.state result

/-- The world before the requests: nobody was told twice, or of what was not awarded. -/
structure Sound (world : World) : Prop where
  single : Single world
  told : ∀ userId, ∀ rule ∈ BADGE_RULES, told world userId rule ≤ 1 ∧
    (¬ Holds world userId rule.name → Badges.told world userId rule = 0)

variable {wired : Bool} {start : World} {requests : List Request}

theorem requests_reach (wired : Bool) (requests : List Request) :
    List.Forall₂ (awarding.Reaches Ended) (requests.map ({ request := · }))
      (requests.map (·.run wired)) := by
  induction requests with
  | nil => exact .nil
  | cons request rest ih => exact .cons (request_reaches wired request) ih

theorem consistent_begun (sound : Sound start) (requests : List Request) :
    Consistent start.users start (requests.map ({ request := · })) := by
  refine ⟨rfl, sound.single, fun userId rule member => ?_, fun g member => ?_⟩
  · have none : (requests.map ({ request := · })).countP (owes userId rule) = 0 := by
      refine List.countP_eq_zero.mpr fun g asked => ?_
      obtain ⟨request, -, rfl⟩ := List.mem_map.mp asked
      simp [owes]
    rw [none]
    exact sound.told userId rule member
  · obtain ⟨request, -, rfl⟩ := List.mem_map.mp member
    exact ⟨fun _ seen => (List.not_mem_nil seen).elim, trivial⟩

/-- Two awards of one rule are one row. -/
theorem granted_unique {world : World} (single : Single world) {userId : String}
    {rule : BadgeRule} (member : rule ∈ BADGE_RULES) {awarded other : AwardedBadge}
    (first : Granted world userId rule.name awarded)
    (second : Granted world userId rule.name other) : awarded = other := by
  obtain ⟨award, present, badge, known, owner, badgeId, named, rfl⟩ := first
  obtain ⟨award', present', badge', known', owner', badgeId', named', rfl⟩ := second
  have same := single rule member badge known badge' known' named named'
  subst same
  have pair : award.pair = award'.pair := by
    rw [UserBadge.pair, UserBadge.pair, owner, owner', badgeId, badgeId']
  rw [world.userBadges.eq_of_index_eq present present' pair]

theorem recallAll_request (schedule : List (Nat × Choice)) (memory : List Progress)
    (pool : Awarding) : (Pool.recallAll exec awarding memory pool schedule).map Progress.request =
      memory.map Progress.request := by
  induction schedule generalizing memory pool with
  | nil => rfl
  | cons turn rest ih =>
    rw [Pool.recallAll, ih, Pool.recallTurn]
    split
    · rename_i op next g about remembers
      rw [List.map_set, after_request]
      exact Pool.set_of_some (by rw [List.getElem?_map, remembers]; rfl)
    · rfl

theorem oncePerRule_of_consistent {pool : Awarding} {memory : List Progress}
    (consistent : Consistent start.users pool.state memory)
    (reached : List.Forall₂ (awarding.Reaches Ended) memory pool.threads)
    (asked : memory.map Progress.request = requests) : OncePerRule requests pool := by
  have ended (i : Nat) (result : Except Exception (List AwardedBadge))
      (done : pool.result? i = some result) :
      ∃ g, memory[i]? = some g ∧ Ended result g ∧ Knows pool.state g := by
    have program := Pool.done_of_result? done
    obtain ⟨lt, -⟩ := List.getElem?_eq_some_iff.mp program
    have lt' : i < memory.length := by rwa [reached.length_eq]
    exact ⟨_, List.getElem?_eq_getElem lt',
      Pool.post_of_done reached (List.getElem?_eq_getElem lt') program,
      consistent.knows _ (List.getElem_mem lt')⟩
  refine ⟨consistent.single, fun userId rule member awarded other first second =>
    granted_unique consistent.single member first second, fun userId rule member => ?_,
    fun i constraint done => ?_, fun i request result present done user => ?_⟩
  · have atMost := (consistent.told userId rule member).1
    omega
  · obtain ⟨g, -, failed | ⟨-, never, -⟩, knows⟩ := ended i _ done
    · have facts := knows.2
      rw [failed] at facts
      exact facts.2 constraint rfl
    · cases never
  · obtain ⟨g, remembers, ended, knows⟩ := ended i result done
    rw [← asked, List.getElem?_map, remembers] at present
    cases present
    cases result with
    | error e =>
      rcases ended with failed | unknown
      · have facts := knows.2
        rw [failed] at facts
        exact absurd user facts.1
      · exact unknown.2
    | ok awards =>
      refine ⟨fun awarded member => ?_, fun userId badgeKey same => ?_⟩
      · obtain ⟨name, seen⟩ := ended.2.1 awarded member
        exact ⟨name, knows.1 _ seen⟩
      · obtain ⟨rule, member, key, awarded, alone, seen⟩ := ended.2.2 userId badgeKey same
        have granted := knows.1 _ seen
        rw [same] at granted
        exact ⟨rule, member, key, awarded, alone, granted⟩

/-- What a thread that has failed ends with. -/
theorem done_of_failed {g : Progress} {error : Exception} {p : Thread}
    (failed : g.phase = .failed error) (reaches : awarding.Reaches Ended g p) :
    p = .done (.error error) := by
  obtain ⟨request, phase, seen⟩ := g
  cases (failed : phase = .failed error)
  cases p with
  | done result =>
    cases result with
    | error e =>
      rcases (reaches : Ended (.error e) _) with same | ⟨idle, -⟩
      · cases same
        rfl
      · cases idle
    | ok awards => exact (reaches : Ended (.ok awards) _).1.elim
  | call op next =>
    have allowed := reaches.1
    cases op with
    | measure => exact allowed.elim
    | findBadge => exact allowed.1.elim
    | insertBadge =>
      obtain ⟨rule, -, missing, -⟩ := allowed
      cases missing
    | findAward | insertAward =>
      obtain ⟨rule, badge, phase, -⟩ := allowed
      cases phase
    | findUserBadge | notify =>
      obtain ⟨rule, phase, -⟩ := allowed
      cases phase

/-- A race shows in the state or in the answer to who loses it. -/
theorem unraced_of_once {pool : Awarding} {memory : List Progress} {turn : Nat × Choice}
    {op : Call} {next : op.Answer → Thread}
    (reached : List.Forall₂ (awarding.Reaches Ended) memory pool.threads)
    (about : pool.threads[turn.1]? = some (.call op next)) (carried : Carried turn.2 op)
    (once : OncePerRule requests (pool.advance exec turn)) : Unraced pool.state op := by
  obtain ⟨lt, same⟩ := List.getElem?_eq_some_iff.mp about
  have lt' : turn.1 < memory.length := by rwa [reached.length_eq]
  have reaches := reached.get lt' lt
  simp only [List.get_eq_getElem, same] at reaches
  generalize memory[turn.1] = g at reaches
  have state : (pool.advance exec turn).state = (exec turn.2 pool.state op).2 := by
    rw [Pool.advance, about]
  have threads : (pool.advance exec turn).threads[turn.1]? =
      some (next (exec turn.2 pool.state op).1) := by
    rw [Pool.advance, about]
    exact List.getElem?_set_self lt
  cases op with
  | measure | findBadge | findAward | findUserBadge | notify => trivial
  | insertBadge data =>
    have performed : turn.2.outcome = .performed := carried.resolve_right id
    obtain ⟨rule, member, -, rfl⟩ := reaches.1
    intro badge known named
    have single := once.single
    rw [state, exec_performed performed] at single
    have made := single rule member badge (List.mem_append_left _ known) _
      (List.mem_append_right _ (List.mem_singleton.mpr rfl)) named rfl
    have below := pool.state.badges.below badge known
    have id : badge.id = pool.state.badges.next := congrArg Badge.id made
    omega
  | insertAward userId badgeId =>
    have performed : turn.2.outcome = .performed := carried.resolve_right id
    obtain ⟨rule, badge, free, -, -⟩ := reaches.1
    intro award present pair
    have lost : (exec turn.2 pool.state (.insertAward userId badgeId)).1 =
        .error (.drizzle (.uniqueViolation "user_badges_unique_idx")) := by
      rw [exec_performed performed, World.perform]
      have taken : (pool.state.later turn.2.elapsed).insertAward userId badgeId =
          .error (.uniqueViolation "user_badges_unique_idx") := insertAward_taken present pair
      rw [taken]
    have ended : next (.error (.drizzle (.uniqueViolation "user_badges_unique_idx"))) = _ :=
      done_of_failed rfl (reaches.2 _)
    rw [lost, ended] at threads
    exact once.unraced turn.1 _ (by rw [Pool.result?, threads])

theorem eachUnraced_of_once {schedule : List (Nat × Choice)} {pool : Awarding}
    {memory : List Progress} (reached : List.Forall₂ (awarding.Reaches Ended) memory pool.threads)
    (carried : Pool.EachCall exec (fun choice _ op => Carried choice op) schedule pool)
    (once : ∀ n, OncePerRule requests (pool.run exec (schedule.take n))) :
    Pool.EachCall exec (fun _ world op => Unraced world op) schedule pool := by
  induction schedule generalizing pool memory with
  | nil => trivial
  | cons turn rest ih =>
    refine ⟨?_, ih (Pool.advance_reaches reached turn) carried.2 fun n => once (n + 1)⟩
    have here := carried.1
    split
    · rename_i op next about
      simp only [about] at here
      exact unraced_of_once reached about here (once 1)
    · trivial

/-- In any interleaving of requests whose calls are carried out, every moment has one badge for a
rule and one award and one notification for a user, and nobody is told of a lost race, exactly if
each badge that is made is the first of its name and each award that is written the first of its
pair. -/
theorem badges_once_iff (wired : Bool) (sound : Sound start) {schedule : List (Nat × Choice)}
    (carried : Pool.EachCall exec (fun choice _ op => Carried choice op) schedule
      (serving wired start requests)) :
    Pool.EachCall exec (fun _ world op => Unraced world op) schedule
        (serving wired start requests) ↔
      ∀ n, OncePerRule requests
        ((serving wired start requests).run exec (schedule.take n)) := by
  have reached : List.Forall₂ (awarding.Reaches Ended) (requests.map ({ request := · }))
      (serving wired start requests).threads := requests_reach wired requests
  refine ⟨fun unraced n => ?_, fun once => eachUnraced_of_once reached carried once⟩
  have follow : Pool.Follow awarding (requests.map ({ request := · }))
      (serving wired start requests) := reached.imp fun _ _ reaches => reaches.follows
  have both := (carried.take exec n).and exec (unraced.take exec n)
  have meets := Pool.meets_of_eachCall exec awarding both (requests.map ({ request := · }))
  have run := Pool.run_invariant (consistent_preserves start.users)
    (consistent_begun sound requests) follow meets
  refine oncePerRule_of_consistent run.1 (Pool.run_reaches reached (schedule.take n)) ?_
  rw [recallAll_request, List.map_map]
  exact List.map_id requests

end Runs

section Examples

/-- Nobody has a badge. -/
def opening : World := ⟨0, ["first", "second"], .empty, .empty, []⟩

def turns (order : List Nat) : List (Nat × Choice) := order.map (·, { count := 1 })

def winners : List Request :=
  [.evaluate "first" .winnerSelected, .manual "second" "contest-champion"]

theorem opening_sound : Sound opening := by
  constructor
  · intro rule _ badge known
    cases known
  · intro userId rule _
    simp [told, opening]

/-- The second user is awarded the badge once it was made for the first. -/
theorem badges_once_apart : OncePerRule winners
    ((serving true opening winners).run exec
      ((turns [0, 0, 0, 1, 0, 1, 1, 0, 1, 0, 0]).take 11)) :=
  (badges_once_iff true opening_sound (by decide)).mp (by decide) 11

/-- Both look for the badge of the rule before either makes it. -/
def twoBadges : Awarding :=
  (serving true opening winners).run exec (turns [0, 0, 1, 0, 1])

/-- Both awards of one user are looked for before either is written. -/
def lostRace : Awarding :=
  (serving true opening [.manual "first" "guardian", .manual "first" "guardian"]).run exec
    (turns [0, 0, 1, 0, 1, 0, 1])

/-- There are two badges of one rule, and who loses a race is answered with the error. -/
theorem badges_raced :
    twoBadges.state.badges.rows.map (·.name) = ["Contest Champion", "Contest Champion"] ∧
    lostRace.result? 1 = some (.error (.drizzle (.uniqueViolation "user_badges_unique_idx"))) ∧
    ¬ OncePerRule winners twoBadges ∧
    ¬ OncePerRule [.manual "first" "guardian", .manual "first" "guardian"] lostRace := by
  have two : ∃ badge ∈ twoBadges.state.badges.rows, ∃ other ∈ twoBadges.state.badges.rows,
      badge.name = "Contest Champion" ∧ other.name = "Contest Champion" ∧ badge ≠ other := by
    decide
  have lost : lostRace.result? 1 =
      some (.error (.drizzle (.uniqueViolation "user_badges_unique_idx"))) := by
    decide
  refine ⟨by decide, lost, fun once => ?_, fun once => once.unraced 1 _ lost⟩
  obtain ⟨badge, known, other, known', named, named', different⟩ := two
  have champion : (⟨"contest-champion", "Contest Champion", "Won a writing contest", "trophy",
    .winnerSelected, .contestWins, .gte, 1⟩ : BadgeRule) ∈ BADGE_RULES := by decide
  exact different (once.single _ champion badge known other known' named named')

end Examples
end Badges
