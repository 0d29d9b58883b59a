import Hakawi.Partitions.Cutover

/-!
# What the cutover loses

Equal numbers say that the two tables have the same rows only where one is inside the other. The
migration keeps that where it begins with it and nobody writes while it runs.
-/

namespace Partitions.Cutover

open Effects Store

/-- What a script has learned: it runs in the transaction of the migration, the number of rows it
counted last, and the tables whose numbers it found equal. -/
structure Checks where
  begun : Bool := false
  source : Option (PartitionedTable × Nat) := none
  matched : List PartitionedTable := []

/-- The migration counts in its transaction, and drops what it has compared. -/
def protocol : Protocol Call Call.Answer Checks where
  allowed checks
    | .countLegacy _ => checks.begun
    | .drop t => t ∈ checks.matched
    | _ => True
  next checks
    | .begin, .ok _ => { checks with begun := true }
    | .countLegacy t, .ok n => { checks with source := some (t, n) }
    | .countPartitioned t, .ok n =>
      if checks.source = some (t, n) then { checks with matched := t :: checks.matched } else checks
    | _, _ => checks

/-- A statement that only the migration sends. -/
def Call.OfMigration : Call → Prop
  | begin => True
  | countLegacy _ => True
  | drop _ => True
  | _ => False

/-- A statement of the application. -/
def Call.IsWrite : Call → Prop
  | writeLegacy .. => True
  | writePartitioned .. => True
  | _ => False

section Scripts
variable {α : Type}

/-- Statements that are allowed whatever has been learned. -/
theorem follows_of_only {p : Program Call Call.Answer α} (only : p.Only fun op => ¬ op.OfMigration)
    (checks : Checks) : protocol.Follows checks p := by
  induction p generalizing checks with
  | done a => trivial
  | call op next ih =>
    refine ⟨?_, fun r => ih r (only.2 r) _⟩
    have other := only.1
    cases op <;> first | trivial | exact (other trivial).elim

theorem wpE_check (t : PartitionedTable) {checks : Checks} (begun : checks.begun) :
    wpE protocol.spec (checkCounts t) (fun result after => ∀ u, result = .ok u →
      after.begun ∧ ∀ other, other = t ∨ other ∈ checks.matched → other ∈ after.matched) checks := by
  rw [checkCounts, wpE_bind, call, wpE_mk_call]
  refine ⟨begun, fun counted => ?_⟩
  cases counted with
  | error e => rintro u ⟨⟩
  | ok source =>
    simp only [Program.wp_done]
    rw [wpE_bind, call, wpE_mk_call]
    refine ⟨trivial, fun counted => ?_⟩
    cases counted with
    | error e => rintro u ⟨⟩
    | ok target =>
      simp only [Program.wp_done, wpE_ite]
      split
      · rename_i same
        rintro u -
        simp only [protocol, same, if_true]
        exact ⟨begun, fun other known => List.mem_cons.mpr known⟩
      · rintro u ⟨⟩

theorem wpE_checks (tables : List PartitionedTable) {checks : Checks} (begun : checks.begun) :
    wpE protocol.spec (forM tables checkCounts) (fun result after => ∀ u, result = .ok u →
      ∀ t, t ∈ tables ∨ t ∈ checks.matched → t ∈ after.matched) checks := by
  induction tables generalizing checks with
  | nil =>
    intro u _ t known
    exact known.resolve_left List.not_mem_nil
  | cons t rest ih =>
    rw [List.forM_cons, wpE_bind]
    refine wpE_mono protocol.spec_monotone (fun result after checked => ?_) (wpE_check t begun)
    cases result with
    | error e => rintro u ⟨⟩
    | ok u =>
      obtain ⟨still, matched⟩ := checked u rfl
      refine wpE_mono protocol.spec_monotone (fun result later rest u ended other known => ?_)
        (ih still)
      refine rest u ended other ?_
      rcases known with member | known
      · rcases List.mem_cons.mp member with rfl | member
        · exact Or.inr (matched other (Or.inl rfl))
        · exact Or.inl member
      · exact Or.inr (matched other (Or.inr known))

theorem wpE_drop (t : PartitionedTable) {checks : Checks} (matched : ∀ t, t ∈ checks.matched) :
    wpE protocol.spec (call (.drop t)) (fun _ after => ∀ t, t ∈ after.matched) checks := by
  refine ⟨matched t, fun dropped => ?_⟩
  cases dropped <;> exact matched

theorem mem_all (t : PartitionedTable) : t ∈ PartitionedTable.all := by
  cases t <;> decide

theorem follows_partitionCutover : protocol.Follows {} partitionCutover.run := by
  suffices ends : wpE protocol.spec partitionCutover (fun _ _ => True) {} from ends
  rw [partitionCutover, wpE_bind, call, wpE_mk_call]
  refine ⟨trivial, fun begun => ?_⟩
  cases begun with
  | error e => trivial
  | ok u =>
    simp only [Program.wp_done]
    rw [wpE_bind]
    refine wpE_mono protocol.spec_monotone (fun result checks checked => ?_)
      (wpE_checks PartitionedTable.all rfl)
    cases result with
    | error e => trivial
    | ok u =>
      have matched (t : PartitionedTable) : t ∈ checks.matched :=
        checked u rfl t (Or.inl (mem_all t))
      exact wpE_mono protocol.spec_monotone (fun _ _ _ => trivial)
        (wpE_forM_invariant protocol.spec_monotone (fun t _ known => wpE_drop t known)
          PartitionedTable.all matched)

theorem onlyE_call {A : Call → Prop} {op : Call} (holds : A op) : OnlyE A (call op) :=
  ⟨holds, fun _ => trivial⟩

theorem onlyE_backfillOne (dryRun : Bool) (t : PartitionedTable) :
    OnlyE (fun op => ¬ op.OfMigration) (backfillOne dryRun t) := by
  refine (onlyE_call (A := fun op => ¬ op.OfMigration) id).bind fun already => ?_
  split
  · exact onlyE_pure _
  · refine (onlyE_call (A := fun op => ¬ op.OfMigration) id).bind fun _ => ?_
    exact (onlyE_call (A := fun op => ¬ op.OfMigration) id).bind fun after => onlyE_pure _

theorem onlyE_backfill (dryRun : Bool) : OnlyE (fun op => ¬ op.OfMigration) (backfill dryRun) := by
  refine OnlyE.bind (OnlyE.foldlM (fun acc t => ?_) _ _) fun _ => onlyE_pure _
  refine OnlyE.tryCatch ?_ fun _ => onlyE_pure _
  exact (onlyE_backfillOne dryRun t).bind fun _ => onlyE_pure _

theorem onlyE_verify : OnlyE (fun op => ¬ op.OfMigration) verify := by
  refine OnlyE.bind (OnlyE.foldlM (fun failures t => ?_) _ _) fun _ => onlyE_pure _
  refine (onlyE_call (A := fun op => ¬ op.OfMigration) id).bind fun present => ?_
  split
  · refine OnlyE.bind (OnlyE.tryCatch ?_ fun _ => onlyE_pure _) fun counts => ?_
    · exact (onlyE_call (A := fun op => ¬ op.OfMigration) id).bind fun _ => onlyE_pure _
    · split <;> exact onlyE_pure _
  · exact onlyE_pure _

/-- What runs at the time of the cutover; of the application, what it writes. -/
inductive Script where
  | cutover
  | backfill (dryRun : Bool)
  | verify
  | application (work : Method PUnit) (writes : OnlyE Call.IsWrite work)

def Script.thread : Script → Program Call Call.Answer (Except String PUnit)
  | .cutover => partitionCutover.run
  | .backfill dryRun => (do let _ ← Cutover.backfill dryRun : Method PUnit).run
  | .verify => (do let _ ← Cutover.verify : Method PUnit).run
  | .application work _ => work.run

theorem Script.follows (script : Script) : protocol.Follows {} script.thread := by
  cases script with
  | cutover => exact follows_partitionCutover
  | backfill dryRun =>
    exact follows_of_only ((onlyE_backfill dryRun).bind fun _ => onlyE_pure _).only _
  | verify => exact follows_of_only (onlyE_verify.bind fun _ => onlyE_pure _).only _
  | application work writes =>
    refine follows_of_only (writes.only.mono fun op write ofMigration => ?_) _
    cases op <;> first | exact write | exact ofMigration

end Scripts

section Runs

/-- Where the legacy table stands, every row of its parent is one of its rows. -/
def Pair.Copied {t : PartitionedTable} (pair : Pair t) : Prop :=
  ∀ legacy ∈ pair.legacy, pair.partitioned.Within legacy

/-- The migration begins where the partitioned tables have only rows of the legacy tables, and
the application writes nothing from then on. -/
def Quiet (_ : Choice) (world : World) : Call → Prop
  | .begin => ∀ t, (world.pairs t).Copied
  | .writeLegacy .. => ¬ world.begun
  | .writePartitioned .. => ¬ world.begun
  | _ => True

/-- What has been learned is true, and it was learned in the migration. -/
structure Checks.Holds (checks : Checks) (world : World) : Prop where
  begun : checks.begun → world.begun
  source : ∀ t n, checks.source = some (t, n) →
    world.begun ∧ ∀ legacy ∈ (world.pairs t).legacy, legacy.size = n
  matched : ∀ t ∈ checks.matched,
    world.begun ∧ ∀ legacy ∈ (world.pairs t).legacy, legacy.Within (world.pairs t).partitioned

structure Guarded (world : World) (memory : List Checks) : Prop where
  lost : ∀ t, (world.pairs t).lost = []
  copied : world.begun → ∀ t, (world.pairs t).Copied
  checks : ∀ checks ∈ memory, checks.Holds world

/-- A step of anything but the application: a legacy table stands as it was or is gone, and its
parent keeps its rows. -/
structure Settles (before after : World) : Prop where
  begun : before.begun → after.begun
  legacy : ∀ t, ∀ legacy ∈ (after.pairs t).legacy, legacy ∈ (before.pairs t).legacy
  partitioned : ∀ t, (before.pairs t).partitioned.Within (after.pairs t).partitioned

theorem Checks.Holds.settle {checks : Checks} {before after : World} (holds : checks.Holds before)
    (settles : Settles before after) : checks.Holds after where
  begun known := settles.begun (holds.begun known)
  source t n known :=
    ⟨settles.begun (holds.source t n known).1,
      fun legacy stands => (holds.source t n known).2 legacy (settles.legacy t legacy stands)⟩
  matched t known :=
    ⟨settles.begun (holds.matched t known).1, fun legacy stands => List.Subset.trans
      ((holds.matched t known).2 legacy (settles.legacy t legacy stands)) (settles.partitioned t)⟩

/-- Before the migration begins nothing has been learned. -/
theorem Checks.Holds.unbegun {checks : Checks} {before : World} (holds : checks.Holds before)
    (idle : ¬ before.begun) (after : World) : checks.Holds after where
  begun known := (idle (holds.begun known)).elim
  source t n known := (idle (holds.source t n known).1).elim
  matched t known := (idle (holds.matched t known).1).elim

theorem Settles.refl (world : World) : Settles world world :=
  ⟨id, fun _ _ stands => stands, fun _ => List.Subset.refl _⟩

theorem settles_setPair {world : World} {t : PartitionedTable} {pair : Pair t}
    (legacy : ∀ legacy ∈ pair.legacy, legacy ∈ (world.pairs t).legacy)
    (partitioned : (world.pairs t).partitioned.Within pair.partitioned) :
    Settles world (world.setPair t pair) := by
  refine ⟨id, fun u => ?_, fun u => ?_⟩
  all_goals by_cases same : u = t
  · subst same
    rw [World.setPair_pairs_self]
    exact legacy
  · rw [World.setPair_pairs_ne world pair same]
    exact fun _ stands => stands
  · subst same
    rw [World.setPair_pairs_self]
    exact partitioned
  · rw [World.setPair_pairs_ne world pair same]
    exact List.Subset.refl _

theorem settles_perform (world : World) {op : Call} (other : ¬ op.IsWrite) :
    Settles world (perform world op).2 := by
  cases op with
  | begin => exact ⟨fun _ => rfl, fun _ _ stands => stands, fun _ => List.Subset.refl _⟩
  | countLegacy t => simp only [perform]; split <;> exact .refl world
  | countPartitioned t => exact .refl world
  | getCounts t => simp only [perform]; split <;> exact .refl world
  | tableExists t => exact .refl world
  | copy t =>
    simp only [perform]
    split
    · exact settles_setPair (fun _ stands => stands) (Keyed.subset_copyFrom _ _)
    · exact .refl world
  | drop t =>
    simp only [perform]
    split
    · exact settles_setPair (fun _ gone => by cases gone) (List.Subset.refl _)
    · exact .refl world
  | writeLegacy t change => exact (other trivial).elim
  | writePartitioned t change => exact (other trivial).elim

theorem exec_cases (choice : Choice) (world : World) (op : Call) :
    (exec choice world op).2 = world ∨ (exec choice world op).2 = (perform world op).2 := by
  cases choice with
  | performed => exact Or.inr rfl
  | refused error => exact Or.inl rfl
  | lost error => exact Or.inr rfl

theorem setPair_forall {P : (t : PartitionedTable) → Pair t → Prop} {world : World}
    {t : PartitionedTable} {pair : Pair t} (all : ∀ u, P u (world.pairs u)) (holds : P t pair)
    (u : PartitionedTable) : P u ((world.setPair t pair).pairs u) := by
  by_cases same : u = t
  · subst same
    rw [World.setPair_pairs_self]
    exact holds
  · rw [World.setPair_pairs_ne world pair same]
    exact all u

/-- A copy adds legacy rows only, and what is dropped is no longer compared. -/
theorem copied_perform {world : World} {op : Call} (other : ¬ op.IsWrite)
    (copied : ∀ t, (world.pairs t).Copied) (t : PartitionedTable) :
    ((perform world op).2.pairs t).Copied := by
  cases op with
  | begin => exact copied t
  | countLegacy u => simp only [perform]; split <;> exact copied t
  | countPartitioned u => exact copied t
  | getCounts u => simp only [perform]; split <;> exact copied t
  | tableExists u => exact copied t
  | copy u =>
    simp only [perform]
    split
    · rename_i legacy stands
      refine setPair_forall copied (P := fun _ pair => pair.Copied) (fun found same row member => ?_) t
      obtain rfl : legacy = found := Option.some.inj (stands.symm.trans same)
      rcases Keyed.mem_of_mem_copyFrom member with old | new
      · exact copied u legacy stands old
      · exact new
    · exact copied t
  | drop u =>
    simp only [perform]
    split
    · refine setPair_forall copied (P := fun _ pair => pair.Copied) (fun found gone => ?_) t
      cases gone
    · exact copied t
  | writeLegacy u change => exact (other trivial).elim
  | writePartitioned u change => exact (other trivial).elim

/-- Rows are lost by a drop, and by none of a table that lies within its parent. -/
theorem lost_perform {world : World} {op : Call} (lost : ∀ t, (world.pairs t).lost = [])
    (matched : ∀ t, op = .drop t →
      ∀ legacy ∈ (world.pairs t).legacy, legacy.Within (world.pairs t).partitioned)
    (t : PartitionedTable) : ((perform world op).2.pairs t).lost = [] := by
  have keeps {u : PartitionedTable} {pair : Pair u} (none : pair.lost = []) :
      ((world.setPair u pair).pairs t).lost = [] :=
    setPair_forall lost (P := fun _ pair => pair.lost = []) none t
  cases op with
  | begin => exact lost t
  | countLegacy u => simp only [perform]; split <;> exact lost t
  | countPartitioned u => exact lost t
  | getCounts u => simp only [perform]; split <;> exact lost t
  | tableExists u => exact lost t
  | copy u =>
    simp only [perform]
    split
    · exact keeps (lost u)
    · exact lost t
  | drop u =>
    simp only [perform]
    split
    · rename_i legacy stands
      refine keeps ?_
      rw [lost u, List.nil_append, List.filter_eq_nil_iff]
      intro row member
      simpa using matched u rfl legacy stands member
    · exact lost t
  | writeLegacy u change =>
    simp only [perform]
    split
    · exact keeps (lost u)
    · exact lost t
  | writePartitioned u change => exact keeps (lost u)

/-- What an answer teaches is true. -/
theorem Checks.Holds.next {checks : Checks} {world : World} {op : Call} (choice : Choice)
    (holds : checks.Holds (exec choice world op).2) (now : checks.Holds world)
    (allowed : protocol.allowed checks op)
    (copied : world.begun → ∀ t, (world.pairs t).Copied) :
    (protocol.next checks op (exec choice world op).1).Holds (exec choice world op).2 := by
  cases op with
  | begin =>
    cases choice with
    | performed => exact ⟨fun _ => rfl, holds.source, holds.matched⟩
    | _ => exact holds
  | countLegacy t =>
    cases choice with
    | performed =>
      simp only [exec, perform] at holds ⊢
      cases stands : (world.pairs t).legacy with
      | none =>
        rw [stands] at holds
        exact holds
      | some legacy =>
        simp only [stands, protocol] at holds ⊢
        refine ⟨holds.begun, fun u n known => ?_, holds.matched⟩
        obtain ⟨rfl, rfl⟩ := Prod.mk.inj (Option.some.inj known)
        refine ⟨holds.begun allowed, fun found same => ?_⟩
        rw [stands] at same
        exact congrArg Keyed.size (Option.some.inj same).symm
    | _ => exact holds
  | countPartitioned t =>
    cases choice with
    | performed =>
      simp only [exec, perform, protocol] at holds ⊢
      split
      · rename_i counted
        obtain ⟨begun, sizes⟩ := now.source t _ counted
        refine ⟨holds.begun, holds.source, fun u known => ?_⟩
        rcases List.mem_cons.mp known with rfl | old
        · refine ⟨begun, fun legacy stands => ?_⟩
          exact (copied begun u legacy stands).symm_of_size (sizes legacy stands)
        · exact holds.matched u old
      · exact holds
    | _ => exact holds
  | _ => exact holds

theorem begun_exec (choice : Choice) (world : World) {op : Call} (other : op ≠ .begin) :
    (exec choice world op).2.begun = world.begun := by
  rcases exec_cases choice world op with same | performed
  · rw [same]
  · rw [performed]
    cases op <;> first | exact (other rfl).elim | (simp only [perform]; try split) <;> rfl

/-- The tables are copied where the migration has begun, and where it begins. -/
theorem copied_of_begun {choice : Choice} {world : World} {op : Call}
    (copied : world.begun → ∀ t, (world.pairs t).Copied) (quiet : Quiet choice world op)
    (begun : (exec choice world op).2.begun) : ∀ t, (world.pairs t).Copied := by
  by_cases begins : op = .begin
  · subst begins
    exact quiet
  · rw [begun_exec choice world begins] at begun
    exact copied begun

theorem guarded_preserved :
    Pool.Preserves exec protocol (fun c world _ op => Quiet c world op) Guarded := by
  intro choice world memory i checks op remembers guarded allowed quiet
  have member : checks ∈ memory := List.mem_of_getElem? remembers
  have lost : ∀ t, ((exec choice world op).2.pairs t).lost = [] := by
    rcases exec_cases choice world op with same | performed
    · rw [same]
      exact guarded.lost
    · rw [performed]
      refine lost_perform guarded.lost fun t drops => ?_
      subst drops
      exact ((guarded.checks checks member).matched t allowed).2
  have kept : ∀ c ∈ memory, c.Holds (exec choice world op).2 := by
    intro c known
    by_cases write : op.IsWrite
    · have idle : ¬ world.begun := by cases op <;> first | exact quiet | exact write.elim
      exact (guarded.checks c known).unbegun idle _
    · refine (guarded.checks c known).settle ?_
      rcases exec_cases choice world op with same | performed
      · rw [same]
        exact .refl world
      · rw [performed]
        exact settles_perform world write
  refine ⟨lost, fun begun => ?_, Pool.forall_mem_set kept ?_⟩
  · have copied := copied_of_begun guarded.copied quiet begun
    rcases exec_cases choice world op with same | performed
    · rw [same]
      exact copied
    · have other : ¬ op.IsWrite := by
        intro write
        have idle : ¬ world.begun := by cases op <;> first | exact quiet | exact write.elim
        rw [begun_exec choice world (by rintro rfl; exact write)] at begun
        exact idle begun
      rw [performed]
      exact copied_perform other copied
  · exact (kept checks member).next choice (guarded.checks checks member) allowed guarded.copied

/-- Nothing has been dropped, and no migration is under way. -/
structure World.Fresh (world : World) : Prop where
  lost : ∀ t, (world.pairs t).lost = []
  begun : world.begun = false

theorem Checks.holds_empty (world : World) : Checks.Holds {} world where
  begun known := by cases known
  source _ _ known := by cases known
  matched _ known := by cases known

/-- In every interleaving of the migration with the scripts and the application, whichever
statements fail: where the migration begins with partitioned tables that have only rows of the
legacy tables, and nobody writes from then on, every row that is dropped is in the parent. -/
theorem nothing_lost {world : World} (fresh : world.Fresh) (scripts : List Script)
    {schedule : List (Nat × Choice)}
    (quiet : Pool.EachCall exec Quiet schedule ⟨world, scripts.map Script.thread⟩)
    (t : PartitionedTable) :
    ((Pool.run exec ⟨world, scripts.map Script.thread⟩ schedule).state.pairs t).lost = [] := by
  have guarded : Guarded world (scripts.map fun _ => {}) := by
    refine ⟨fresh.lost, fun begun => ?_, fun checks member => ?_⟩
    · rw [fresh.begun] at begun
      cases begun
    · obtain ⟨script, -, rfl⟩ := List.mem_map.mp member
      exact Checks.holds_empty world
  have follow : Pool.Follow protocol (scripts.map fun _ => {})
      (⟨world, scripts.map Script.thread⟩ : Pool World Call Call.Answer _) := by
    refine List.forall₂_map_left_iff.mpr (List.forall₂_map_right_iff.mpr ?_)
    exact List.forall₂_same.mpr fun script _ => script.follows
  have meets := Pool.meets_of_eachCall exec protocol quiet (scripts.map fun _ => {})
  exact (Pool.run_invariant guarded_preserved guarded follow meets).1.lost t

instance {t : PartitionedTable} (pair : Pair t) : Decidable pair.Copied :=
  inferInstanceAs (Decidable (∀ legacy ∈ pair.legacy, pair.partitioned.Within legacy))

instance (world : World) : Decidable (∀ t, (world.pairs t).Copied) :=
  decidable_of_iff (∀ t ∈ PartitionedTable.all, (world.pairs t).Copied)
    ⟨fun each t => each t (mem_all t), fun each t _ => each t⟩

instance decidableQuiet (choice : Choice) (world : World) :
    (op : Call) → Decidable (Quiet choice world op)
  | .begin => inferInstanceAs (Decidable (∀ t, (world.pairs t).Copied))
  | .writeLegacy .. => inferInstanceAs (Decidable (¬ world.begun))
  | .writePartitioned .. => inferInstanceAs (Decidable (¬ world.begun))
  | .countLegacy _ => .isTrue trivial
  | .countPartitioned _ => .isTrue trivial
  | .getCounts _ => .isTrue trivial
  | .tableExists _ => .isTrue trivial
  | .copy _ => .isTrue trivial
  | .drop _ => .isTrue trivial

def messageAt (id : String) (createdAt : Int) : Message :=
  ⟨id, "conversation", "sender", "hello", false, none, createdAt⟩

/-- Some messages on either side, and nothing else. -/
def messaging (legacy : Keyed Message Message.id)
    (partitioned : Keyed Message (PartitionedTable.key .messages)) : World where
  pairs
    | .messages => ⟨some legacy, partitioned, []⟩
    | _ => ⟨some ⟨[], List.nodup_nil⟩, ⟨[], List.nodup_nil⟩, []⟩
  begun := false

theorem messaging_fresh (legacy : Keyed Message Message.id)
    (partitioned : Keyed Message (PartitionedTable.key .messages)) :
    (messaging legacy partitioned).Fresh where
  lost t := by cases t <;> rfl
  begun := rfl

/-- The backfill to its end, then the migration. -/
theorem nothing_lost_backfilled :
    let world := messaging ⟨[messageAt "m" 5], by decide⟩ ⟨[], by decide⟩
    let scripts := [Script.backfill false, .cutover]
    let schedule : List (Nat × Choice) :=
      List.replicate 12 (0, .performed) ++ List.replicate 13 (1, .performed)
    ((Pool.run exec ⟨world, scripts.map Script.thread⟩ schedule).state.pairs .messages).lost = [] :=
  nothing_lost (messaging_fresh _ _) _ (by decide) .messages

/-- A message that was never copied and another that is only in the parent: one row on either
side, and the first is gone. -/
theorem message_lost :
    let world := messaging ⟨[messageAt "old" 5], by decide⟩ ⟨[messageAt "new" 7], by decide⟩
    let schedule : List (Nat × Choice) := List.replicate 13 (0, .performed)
    ((Pool.run exec ⟨world, [Script.cutover].map Script.thread⟩ schedule).state.pairs
      .messages).lost = [messageAt "old" 5] := by
  decide

end Runs
end Partitions.Cutover
