import Hakawi.Stories.FreshReads

/-!
# Stories behind the router

The primary and its replicas. A replica holds a state that the primary had, and moves on through
the later ones, at any pace: one whose lag is unknown counts as usable, whatever its lag. Selects
go to the replica that the router picks, if there is one; everything else goes to the primary.
-/

namespace Stories
open Html Common Effects Caching

structure RoutedWorld where
  /-- With the primary's database. -/
  world : World
  /-- The states the primary has left behind, oldest first. -/
  past : List Database
  /-- How many writes each replica has applied. -/
  applied : Nat → Nat

structure Routing extends Choice where
  /-- How many more writes each replica applies before the call. -/
  applies : Nat → Nat := fun _ => 0
  /-- `getNextReplica` -/
  replica : Option Nat := none

def Statement.isSelect : Statement → Bool
  | storyById _ | storyBySlug _ | tagsByName _ => true
  | _ => false

/-- The call is a statement, and the database has carried it out. -/
def Call.performed : (call : Call) → call.Result → Bool
  | .sql _, .ok _ => true
  | _, _ => false

namespace RoutedWorld
variable (ids : UuidText) (routing : Routing) (routed : RoutedWorld)

/-- The state after each write, the first one before any. -/
def history : List Database := routed.past ++ [routed.world.database]

/-- What the replicas have applied when the call is made; none is ahead of the primary. -/
def catchUp (replica : Nat) : Nat :=
  min (routed.applied replica + routing.applies replica) routed.past.length

/-- The state that a select is served from. -/
def served : Database :=
  match routing.replica with
  | none => routed.world.database
  | some replica => (routed.history[routed.catchUp routing replica]?).getD routed.world.database

/-- A select changes nothing, wherever it goes. -/
def select (call : Call) : call.Result × RoutedWorld :=
  let asked := World.exec ids routing.toChoice
    { routed.world with database := routed.served routing } call
  (asked.1, ⟨{ asked.2 with database := routed.world.database }, routed.past,
    routed.catchUp routing⟩)

def onPrimary (call : Call) : call.Result × RoutedWorld :=
  let asked := World.exec ids routing.toChoice routed.world call
  (asked.1, ⟨asked.2, if call.performed asked.1 then routed.history else routed.past,
    routed.catchUp routing⟩)

def exec (call : Call) : call.Result × RoutedWorld :=
  match call with
  | .sql statement =>
    if statement.isSelect then routed.select ids routing (.sql statement)
    else routed.onPrimary ids routing (.sql statement)
  | call => routed.onPrimary ids routing call

end RoutedWorld

/-- The row that a statement finds. -/
def Statement.finds (ids : UuidText) (db : Database) : Statement → Option Story
  | storyById id => (ids.parse id).bind db.stories.find?
  | storyBySlug slug => db.stories.findBy? slug
  | _ => none

section Frames
variable {ids : UuidText} {routing : Routing} {routed : RoutedWorld}

/-- A call that is not performed leaves the primary as it is. -/
theorem database_exec_of_not_performed {choice : Choice} {world : World} {call : Call}
    (failed : call.performed (World.exec ids choice world call).1 = false) :
    (World.exec ids choice world call).2.database = world.database := by
  cases call with
  | now => rfl
  | emit event => rfl
  | cache command =>
    simp only [World.exec]
    split <;> rfl
  | sql statement =>
    simp only [World.exec] at failed ⊢
    split at failed
    · rfl
    · split at failed
      · rfl
      · cases failed

variable (ids routing routed) in
/-- What is past stays past, and a state that is left behind was the present one. -/
theorem history_exec (call : Call) : (routed.exec ids routing call).2.history = routed.history ∨
    ∃ database, (routed.exec ids routing call).2.history = routed.history ++ [database] := by
  have primary (call : Call) : (routed.onPrimary ids routing call).2.history = routed.history ∨
      ∃ database, (routed.onPrimary ids routing call).2.history = routed.history ++ [database] := by
    simp only [RoutedWorld.onPrimary]
    split
    · exact Or.inr ⟨_, rfl⟩
    · rename_i failed
      refine Or.inl ?_
      simp only [RoutedWorld.history,
        database_exec_of_not_performed (Bool.not_eq_true _ ▸ failed)]
  cases call with
  | sql statement =>
    simp only [RoutedWorld.exec]
    split
    · exact Or.inl rfl
    · exact primary _
  | _ => exact primary _

/-- A call that is no command of the cache only lets time pass there. -/
theorem routed_store_exec {call : Call} (plain : ∀ command, call ≠ .cache command) :
    (routed.exec ids routing call).2.world.store =
      ⟨routed.world.clock + routing.elapsed, routed.world.cache⟩ := by
  cases call with
  | cache command => exact absurd rfl (plain command)
  | now => exact store_exec plain
  | emit event => exact store_exec plain
  | sql statement =>
    simp only [RoutedWorld.exec]
    split
    · have asked : (World.exec ids routing.toChoice
          { routed.world with database := routed.served routing } (.sql statement)).2.store =
            ⟨routed.world.clock + routing.elapsed, routed.world.cache⟩ := store_exec plain
      exact asked
    · exact store_exec plain

/-- A row that a select answers with is one that it finds where it is sent. -/
theorem select_storyById {id : Units} {row : Story}
    (answered : (routed.exec ids routing (.sql (.storyById id))).1 = .ok (some row)) :
    (Statement.storyById id).finds ids (routed.served routing) = some row ∧
      routing.refuses (.sql (.storyById id)) = none := by
  change (World.exec ids routing.toChoice _ (.sql (.storyById id))).1 = _ at answered
  simp only [World.exec] at answered
  cases allowed : routing.refuses (.sql (.storyById id)) with
  | some code =>
    rw [allowed] at answered
    cases answered
  | none =>
    rw [allowed] at answered
    refine ⟨?_, rfl⟩
    cases named : ids.parse id with
    | none =>
      simp only [Database.perform, named] at answered
      cases answered
    | some key =>
      simp only [Database.perform, named] at answered
      injection answered with found
      rw [Statement.finds, named]
      exact found

theorem select_storyBySlug {slug : Units} {row : Story}
    (answered : (routed.exec ids routing (.sql (.storyBySlug slug))).1 = .ok (some row)) :
    (Statement.storyBySlug slug).finds ids (routed.served routing) = some row ∧
      routing.refuses (.sql (.storyBySlug slug)) = none := by
  change (World.exec ids routing.toChoice _ (.sql (.storyBySlug slug))).1 = _ at answered
  simp only [World.exec] at answered
  cases allowed : routing.refuses (.sql (.storyBySlug slug)) with
  | some code =>
    rw [allowed] at answered
    cases answered
  | none =>
    rw [allowed] at answered
    injection answered with found
    exact ⟨found, rfl⟩

end Frames
end Stories
