import Hakawi.Moderation.Restrictions

/-!
# Whether a ban is enforced

The rows are a history, the key is one value that every ban and every mute
overwrites. A ban stays enforced for as long as its row says exactly when nothing
is written over it that is not a ban, or that ends before it.
-/

namespace Moderation.Restrictions

open Common Store Effects

/-- A ban is written down for the account, and its time has not come. -/
def World.Banned (world : World) (userId : String) (time : Int) : Prop :=
  ∃ row ∈ world.restrictions, row.userId = userId ∧ row.type = .ban ∧ time < row.expiresAt

instance (world : World) (userId : String) (time : Int) :
    Decidable (world.Banned userId time) :=
  inferInstanceAs (Decidable (∃ row ∈ world.restrictions, _))

/-- Whoever is banned is refused, from now on as long as nothing more is done. -/
def World.Enforced (world : World) : Prop :=
  ∀ userId time, world.clock ≤ time → world.Banned userId time →
    world.asked userId time = .ok true

/-- What is written over the key of an account at a time is a ban, and outlasts every ban of the
account that is still in force. -/
def Outlasts (world : World) (time : Int) : Event → Prop
  | .actionTaken _ _ _ userId action _ durationMinutes =>
    ∀ type ∈ RESTRICTION_TYPE_BY_ACTION action, ∀ row ∈ world.restrictions,
      row.userId = userId → row.type = .ban → time < row.expiresAt →
        type = .ban ∧ row.expiresAt ≤ time + restrictionTtlSeconds action durationMinutes * 1000
  | .contentRemoved _ _ _ _ _ => True

instance (world : World) (time : Int) (event : Event) : Decidable (Outlasts world time event) := by
  cases event <;> unfold Outlasts <;> infer_instance

/-- The operation lifts no ban and shortens none. -/
def Operation.Spares (world : World) (op : Operation) : Prop :=
  ∀ event ∈ (world.take op).pending,
    Outlasts world ((world.take op).clock + op.handlerDelay) event

instance (world : World) (op : Operation) : Decidable (op.Spares world) :=
  inferInstanceAs (Decidable (∀ event ∈ _, _))

section Queries
variable (world : World)

/-- What the key of an account says at a time. -/
def World.entry (userId : String) (time : Int) : Option (Entry String) :=
  world.cache.live time (restrictionCacheKey userId)

theorem asked_eq (userId : String) (time : Int) :
    world.asked userId time = .ok (match world.cache.get time (restrictionCacheKey userId) with
      | .ok value => AccountRestrictionService.isBan value
      | .error _ => false) := by
  have spec : wpE (Program.execSpec exec (· = 0)) (AccountRestrictionService.hasActiveBan userId)
      (fun result _ => result = .ok (match world.cache.get time (restrictionCacheKey userId) with
        | .ok value => AccountRestrictionService.isBan value
        | .error _ => false)) { world with clock := time } := by
    rw [AccountRestrictionService.hasActiveBan, wpE_tryCatch, wpE_bind,
      AccountRestrictionService.readCurrentRestriction]
    rintro _ rfl
    simp only [exec, World.perform, Valkey.exec, Int.natCast_zero, Int.add_zero]
    cases world.cache.get time (restrictionCacheKey userId) with
    | ok value => rfl
    | error e => rfl
  exact Program.eval_of_wp spec fun _ => rfl

theorem asked_iff (userId : String) (time : Int) :
    world.asked userId time = .ok true ↔ ∃ expiresAt, world.entry userId time =
      some ⟨.text (.other RestrictionType.ban.text), expiresAt⟩ := by
  rw [asked_eq, World.entry, Valkey.get]
  rcases world.cache.live time (restrictionCacheKey userId) with
    _ | ⟨⟨_ | _ | text⟩ | _, expiresAt⟩ <;>
    simp [AccountRestrictionService.isBan]

/-- The key of the account as the handler leaves it. -/
def World.overwrite (type : RestrictionType) (userId : String) (ttlSeconds : Int) : World :=
  { world with
    cache := world.cache.put (restrictionCacheKey userId)
      (some ⟨.text (.other type.text), some (world.clock + ttlSeconds * 1000)⟩) }

theorem handle_actionTaken (delay actionId reportId : Nat) (adminId userId : String)
    (action : Action) (reason : String) (minutes : Option Int) :
    world.handle delay (.actionTaken actionId reportId adminId userId action reason minutes) =
      match RESTRICTION_TYPE_BY_ACTION action with
      | none => world
      | some type => { world with clock := world.clock + delay }.overwrite type userId
          (restrictionTtlSeconds action minutes) := by
  simp only [World.handle, Event.handler, handleModerationActionTaken]
  cases RESTRICTION_TYPE_BY_ACTION action with
  | none => rfl
  | some type =>
    have positive := restrictionTtlSeconds_pos action minutes
    have spec : wpE (Program.execSpec exec (· = delay))
        (do (← call (.valkey (.set (restrictionCacheKey userId) (.other type.text)
          (some (restrictionTtlSeconds action minutes)))) : Except Failure Unit))
        (fun _ after => after = { world with clock := world.clock + delay }.overwrite type userId
          (restrictionTtlSeconds action minutes)) world := by
      rintro _ rfl
      simp only [exec, World.perform, Valkey.exec, Valkey.set, World.overwrite]
      rw [if_neg (by omega), if_neg (by omega)]
      rfl
    exact Program.eval_of_wp spec fun _ => rfl

end Queries

section Taking
variable {world : World}

/-- Every execution, whatever time it takes. -/
def anyhow : Program.OpSpec Call Call.Answer World := Program.execSpec exec fun _ => True

theorem anyhow_monotone : anyhow.Monotone := Program.execSpec_monotone _ _

theorem wpE_then {β : Type} {op : Call} {next : op.Answer → Handler β}
    {Q : Except Failure β → World → Prop}
    (goes : ∀ delay, wpE anyhow (next (exec delay world op).1) Q (exec delay world op).2) :
    wpE anyhow (call op >>= next) Q world := by
  rw [call, wpE_call_bind_eq]
  exact fun delay _ => goes delay

/-- The row is the action's, and ends no later than a key that is set after a time. -/
def RowOf (input : ModerationActionDto) (time : Int) (row : UserRestriction) : Prop :=
  row.userId = input.targetUserId.getD "" ∧ row.type = restrictionTypeForAction input.action ∧
    row.expiresAt ≤ time + restrictionTtlSeconds input.action input.minutes * 1000

theorem RowOf.later {input : ModerationActionDto} {time time' : Int} {row : UserRestriction}
    (rowOf : RowOf input time row) (le : time ≤ time') : RowOf input time' row := by
  obtain ⟨account, type, ends⟩ := rowOf
  exact ⟨account, type, by omega⟩

def Event.IsRemoval : Event → Prop
  | .contentRemoved _ _ _ _ _ => True
  | _ => False

/-- What taking an action leaves: perhaps a row, and the announcement. -/
structure Taken (adminId : String) (input : ModerationActionDto) (before after : World) :
    Prop where
  cache : after.cache = before.cache
  clock : before.clock ≤ after.clock
  outcome : (after.restrictions = before.restrictions ∧ after.pending = before.pending) ∨
    ∃ actionId reportId rest added, after.pending = before.pending ++
        .actionTaken actionId reportId adminId (input.targetUserId.getD "") input.action
          input.reason input.minutes :: rest ∧ (∀ event ∈ rest, event.IsRemoval) ∧
      after.restrictions = before.restrictions ++ added ∧
        ∀ row ∈ added, RowOf input after.clock row

theorem restrict_leaves (adminId : String) (input : ModerationActionDto) :
    wpE anyhow (ModerationService.restrict adminId input) (fun result after =>
      result = .ok () ∧ after.cache = world.cache ∧ world.clock ≤ after.clock ∧
        after.pending = world.pending ∧
        ∃ added, after.restrictions = world.restrictions ++ added ∧
          ∀ row ∈ added, RowOf input after.clock row) world := by
  have nothing : ∃ added : List UserRestriction, world.restrictions = world.restrictions ++ added ∧
      ∀ row ∈ added, RowOf input world.clock row :=
    ⟨[], (List.append_nil _).symm, fun _ member => by cases member⟩
  rw [ModerationService.restrict]
  cases target : input.targetUserId with
  | none => exact ⟨rfl, rfl, Int.le_refl _, rfl, nothing⟩
  | some userId =>
    simp only [wpE_ite]
    split
    · refine wpE_then fun delay delay' _ => ⟨rfl, rfl, ?_, rfl, [_], rfl, ?_⟩
      · simp only [exec, World.perform]
        omega
      · intro row member
        rw [List.mem_singleton.mp member]
        refine ⟨by rw [target]; rfl, rfl, ?_⟩
        simp only [exec, World.perform]
        omega
    · exact ⟨rfl, rfl, Int.le_refl _, rfl, nothing⟩

theorem takeAction_leaves (reportId : Nat) (adminId : String) (input : ModerationActionDto) :
    wpE anyhow (ModerationService.takeAction reportId adminId input)
      (fun _ after => Taken adminId input world after) world := by
  refine wpE_then fun delay => ?_
  refine wpE_liftM_bind _ (fun _ _ => ⟨rfl, ?_, Or.inl ⟨rfl, rfl⟩⟩) fun report found => ?_
  · simp only [exec, World.perform]
    omega
  refine wpE_then fun delay' => ?_
  simp only [exec, World.perform]
  cases checkAction { world with clock := world.clock + delay + delay' } adminId input with
  | error e =>
    refine wpE_liftM_bind _ (fun _ _ => ⟨rfl, ?_, Or.inl ⟨rfl, rfl⟩⟩) fun _ ok => by cases ok
    dsimp only
    omega
  | ok _ =>
    refine wpE_liftM_bind _ (fun _ failed => by cases failed) fun action _ => ?_
    rw [wpE_bind]
    refine wpE_mono anyhow_monotone (fun result later left => ?_) (restrict_leaves adminId input)
    obtain ⟨rfl, cache, clock, pending, added, restrictions, rows⟩ := left
    dsimp only at cache clock pending restrictions
    refine wpE_then fun delay => ?_
    rw [ModerationService.requestContentRemoval, wpE_bind, wpE_ite]
    split
    · intro delay' _
      refine ⟨cache, ?_, Or.inr ⟨action.id, reportId, [.contentRemoved report.id report.targetType
        report.targetId adminId input.reason], added, ?_, ?_, restrictions, ?_⟩⟩
      · simp only [exec, World.perform]
        omega
      · simp [exec, World.perform, pending]
      · intro event member
        rw [List.mem_singleton.mp member]
        trivial
      · intro row member
        refine (rows row member).later ?_
        simp only [exec, World.perform]
        omega
    · refine ⟨cache, ?_, Or.inr ⟨action.id, reportId, [], added, ?_, ?_, restrictions, ?_⟩⟩
      · simp only [exec, World.perform]
        omega
      · simp [exec, World.perform, pending]
      · intro event member
        cases member
      · intro row member
        refine (rows row member).later ?_
        simp only [exec, World.perform]
        omega

theorem taken (world : World) (op : Operation) : Taken op.adminId op.input world (world.take op) :=
  Program.eval_of_wp (takeAction_leaves op.reportId op.adminId op.input) fun _ => trivial

end Taking

section Steps
variable {world after : World} {op : Operation}

def Operation.target (op : Operation) : String := op.input.targetUserId.getD ""

def Operation.ttl (op : Operation) : Int := restrictionTtlSeconds op.input.action op.input.minutes

theorem foldl_removals (delay : Nat) {rest : List Event} (removals : ∀ e ∈ rest, e.IsRemoval) :
    rest.foldl (World.handle delay) world = world := by
  induction rest with
  | nil => rfl
  | cons event rest ih =>
    have first := removals event List.mem_cons_self
    cases event with
    | actionTaken => cases first
    | contentRemoved => exact ih fun e member => removals e (List.mem_cons_of_mem _ member)

/-- No key is written, and no ban written down. -/
structure Quiet (world after : World) : Prop where
  cache : after.cache = world.cache
  clock : world.clock ≤ after.clock
  rows : ∀ row, row.type = .ban → (row ∈ after.restrictions ↔ row ∈ world.restrictions)

/-- The key of the target is written over at the end of the step. -/
structure Overwritten (world : World) (op : Operation) (type : RestrictionType) (after : World) :
    Prop where
  cache : after.cache = world.cache.put (restrictionCacheKey op.target)
    (some ⟨.text (.other type.text), some (after.clock + op.ttl * 1000)⟩)
  clock : world.clock ≤ after.clock
  rows : ∀ row ∈ after.restrictions, row ∈ world.restrictions ∨
    row.userId = op.target ∧ row.type = type ∧ row.expiresAt ≤ after.clock + op.ttl * 1000
  older : ∀ row ∈ world.restrictions, row ∈ after.restrictions

/-- The step writes over no key, or over one. -/
theorem step_cases (idle : world.pending = []) (op : Operation) :
    (world.step op).pending = [] ∧ ((Quiet world (world.step op) ∧ op.Spares world) ∨
      ∃ type, Overwritten world op type (world.step op) ∧
        (op.Spares world ↔ ∀ row ∈ world.restrictions, row.userId = op.target →
          row.type = .ban → (world.step op).clock < row.expiresAt →
            type = .ban ∧ row.expiresAt ≤ (world.step op).clock + op.ttl * 1000)) := by
  obtain ⟨cache, clock, outcome⟩ := taken world op
  obtain ⟨restrictions, pending⟩ | ⟨actionId, reportId, rest, added, pending, removals,
    restrictions, rows⟩ := outcome
  · rw [idle] at pending
    have same : world.step op = world.take op := by
      rw [World.step, pending, List.foldl_nil, ← pending]
    rw [same]
    refine ⟨pending, Or.inl ⟨⟨cache, clock, fun row _ => by rw [restrictions]⟩, ?_⟩⟩
    simp [Operation.Spares, pending]
  · rw [idle, List.nil_append] at pending
    have reached : world.step op = World.handle op.handlerDelay { world.take op with pending := [] }
        (.actionTaken actionId reportId op.adminId op.target op.input.action op.input.reason
          op.input.minutes) := by
      rw [World.step, pending, List.foldl_cons, foldl_removals _ removals]
      rfl
    have others : ∀ event ∈ rest, ∀ time, Outlasts world time event := by
      intro event member time
      have removal := removals event member
      cases event with
      | actionTaken => cases removal
      | contentRemoved => trivial
    rw [handle_actionTaken] at reached
    cases type : RESTRICTION_TYPE_BY_ACTION op.input.action with
    | none =>
      simp only [type] at reached
      rw [reached]
      refine ⟨rfl, Or.inl ⟨⟨cache, clock, fun row ban => ?_⟩, ?_⟩⟩
      · rw [restrictions, List.mem_append, or_iff_left]
        intro new
        have stored := (rows row new).2.1
        rw [ban, restrictionTypeForAction, type] at stored
        cases stored
      · intro event member
        rw [pending] at member
        rcases List.mem_cons.mp member with rfl | later
        · intro t known
          rw [type] at known
          cases known
        · exact others event later _
    | some type' =>
      simp only [type] at reached
      rw [reached]
      refine ⟨rfl, Or.inr ⟨type', ⟨?_, ?_, fun row member => ?_, fun row member => ?_⟩, ?_⟩⟩
      · simp only [World.overwrite, cache, Operation.ttl]
      · simp only [World.overwrite]
        omega
      · simp only [World.overwrite, restrictions] at member ⊢
        rcases List.mem_append.mp member with old | new
        · exact Or.inl old
        · obtain ⟨account, stored, ends⟩ := (rows row new).later (by omega :
            (world.take op).clock ≤ (world.take op).clock + op.handlerDelay)
          rw [restrictionTypeForAction, type] at stored
          exact Or.inr ⟨account, stored, ends⟩
      · simp only [World.overwrite, restrictions]
        exact List.mem_append_left _ member
      · simp only [World.overwrite, Operation.Spares, pending, List.forall_mem_cons]
        constructor
        · intro spares
          exact spares.1 type' type
        · intro spares
          refine ⟨fun t known => ?_, fun event member => others event member _⟩
          obtain rfl := Option.some.inj (type.symm.trans known)
          exact spares

theorem Quiet.enforced (quiet : Quiet world after) (enforced : world.Enforced) :
    after.Enforced := by
  intro userId time late ⟨row, member, account, ban, unexpired⟩
  have clock := quiet.clock
  have before := enforced userId time (by omega)
    ⟨row, (quiet.rows row ban).mp member, account, ban, unexpired⟩
  rw [asked_iff, World.entry] at before ⊢
  rwa [quiet.cache]

theorem restrictionCacheKey_injective {userId other : String}
    (same : restrictionCacheKey userId = restrictionCacheKey other) : userId = other := by
  have bare : toString userId = toString other := by simpa [restrictionCacheKey] using same
  exact bare

theorem Overwritten.entry_other {type : RestrictionType} (overwrote : Overwritten world op type after)
    {userId : String} (other : userId ≠ op.target) (time : Int) :
    after.entry userId time = world.entry userId time := by
  have keys : restrictionCacheKey userId ≠ restrictionCacheKey op.target :=
    fun same => other (restrictionCacheKey_injective same)
  rw [World.entry, World.entry, overwrote.cache, Valkey.live, Valkey.put_entries_ne keys, Valkey.live]

/-- The key that was written over says a ban until its time to live ends. -/
theorem Overwritten.asked_target {type : RestrictionType}
    (overwrote : Overwritten world op type after) (time : Int) :
    after.asked op.target time = .ok true ↔
      type = .ban ∧ time < after.clock + op.ttl * 1000 := by
  rw [asked_iff, World.entry, overwrote.cache]
  simp only [Valkey.live_eq_some, Valkey.put_entries_self, Option.some.injEq, Entry.mk.injEq,
    Content.text.injEq, Text.other.injEq]
  constructor
  · rintro ⟨_, ⟨text, rfl⟩, unexpired⟩
    refine ⟨?_, unexpired _ rfl⟩
    cases type with
    | ban => rfl
    | _ => simp [RestrictionType.text] at text
  · rintro ⟨rfl, unexpired⟩
    refine ⟨_, ⟨rfl, rfl⟩, ?_⟩
    rintro _ ⟨⟩
    exact unexpired

/-- Writing over a key keeps the bans enforced exactly when it outlasts those in force. -/
theorem Overwritten.enforced_iff {type : RestrictionType}
    (overwrote : Overwritten world op type after) (enforced : world.Enforced) :
    after.Enforced ↔ ∀ row ∈ world.restrictions, row.userId = op.target → row.type = .ban →
      after.clock < row.expiresAt →
        type = .ban ∧ row.expiresAt ≤ after.clock + op.ttl * 1000 := by
  constructor
  · intro kept row member account ban unexpired
    have banned (time : Int) (before : time < row.expiresAt) : after.Banned op.target time :=
      ⟨row, overwrote.older row member, account, ban, before⟩
    have now := kept op.target after.clock (Int.le_refl _) (banned _ unexpired)
    obtain ⟨isBan, lasting⟩ := (overwrote.asked_target _).mp now
    refine ⟨isBan, ?_⟩
    by_contra longer
    -- the row outlives the key: at the end of the key the account is banned, and let in
    have gone := kept op.target (after.clock + op.ttl * 1000) (by omega) (banned _ (by omega))
    have late := ((overwrote.asked_target _).mp gone).2
    omega
  · rintro outlasts userId time late ⟨row, member, account, ban, unexpired⟩
    have clock := overwrote.clock
    by_cases same : userId = op.target
    · subst same
      rw [overwrote.asked_target]
      rcases overwrote.rows row member with old | ⟨-, stored, ends⟩
      · obtain ⟨isBan, ends⟩ := outlasts row old account ban (by omega)
        exact ⟨isBan, by omega⟩
      · exact ⟨stored.symm.trans ban, by omega⟩
    · have old : row ∈ world.restrictions := by
        rcases overwrote.rows row member with old | ⟨own, -⟩
        · exact old
        · exact absurd (account.symm.trans own) same
      have before := enforced userId time (by omega) ⟨row, old, account, ban, unexpired⟩
      rw [asked_iff] at before ⊢
      rwa [overwrote.entry_other same]

/-- A step keeps the bans enforced if and only if it spares them. -/
theorem step_enforced_iff (idle : world.pending = []) (enforced : world.Enforced)
    (op : Operation) : (world.step op).Enforced ↔ op.Spares world := by
  obtain ⟨quiet, spares⟩ | ⟨type, overwrote, spares⟩ := (step_cases idle op).2
  · exact iff_of_true (quiet.enforced enforced) spares
  · rw [spares]
    exact overwrote.enforced_iff enforced

end Steps

/-- Over a run of actions that begins without restrictions, every ban is enforced at every time for
as long as its row says, if and only if no step writes over the key of an account with a mute, or
with a ban that ends earlier, while a ban of the account is in force. -/
theorem bans_enforced_iff {world : World} (idle : world.pending = [])
    (unrestricted : world.restrictions = []) (operations : List Operation) :
    (∀ n, (Trace.run World.step world (operations.take n)).Enforced) ↔
      Trace.Meets World.step (fun world op => op.Spares world) world operations := by
  have enforced : world.Enforced := by
    rintro userId time - ⟨row, member, -⟩
    rw [unrestricted] at member
    cases member
  clear unrestricted
  induction operations generalizing world with
  | nil => exact iff_of_true (fun n => by rw [List.take_nil]; exact enforced) trivial
  | cons op rest ih =>
    have step := step_enforced_iff idle enforced op
    have idle' := (step_cases idle op).1
    constructor
    · intro kept
      have first := kept 1
      refine ⟨step.mp first, (ih idle' first).mp fun n => kept (n + 1)⟩
    · rintro ⟨spares, later⟩ n
      have first := step.mpr spares
      cases n with
      | zero => exact enforced
      | succ n => exact (ih idle' first).mpr later n

/-- A report of the reader, and nothing decided yet. -/
def reported : World where
  clock := 0
  users := ["admin", "reader"]
  reports := Table.empty.insert
    (Reports.newReport ⟨none, "story", .story, "spam", none, .auto⟩ 0) (Reports.newReport_id _ 0)
  actions := .empty
  restrictions := []
  pending := []
  cache := .empty

/-- An action against the reader, a second before each statement. -/
def against (action : Action) (durationMinutes : Option { minutes : Int // 0 < minutes }) :
    Operation where
  reportId := 0
  adminId := "admin"
  input := { action, reason := "spam", durationMinutes, targetUserId := some "reader" }
  delays := fun _ => 1000
  handlerDelay := 1000

theorem bans_enforced_iff_longer : (Trace.run World.step reported
    ([against .mute none, against .ban (some ⟨60, by decide⟩), against .warn (some ⟨5, by decide⟩),
      against .ban none].take 4)).Enforced :=
  (bans_enforced_iff rfl rfl _).mpr (by decide) 4

/-- A ban of a day, then a mute: the ban is still written down, and the reader is let in. -/
theorem mute_lifts_ban :
    let world := Trace.run World.step reported
      [against .ban none, against .mute (some ⟨60, by decide⟩)]
    world.Banned "reader" world.clock ∧ world.asked "reader" world.clock = .ok false := by
  decide

end Moderation.Restrictions
