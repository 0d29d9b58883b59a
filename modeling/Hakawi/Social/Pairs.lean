import Hakawi.Social.Protocol

/-!
# One reaction for a reader and a target

A reaction is looked up and then written, and it is looked up and then deleted;
nothing keeps another request from coming in between, and the index of the
partitioned table lets a second row in. Where no write comes too late, a pair has
at most one row, and its announcements add up to that.
-/

namespace Social

open Common Store Effects

/-- What an announcement says the rows of a pair have gained. -/
def Event.moves (kind : Kind) (userId : String) (targetId : Nat) : Event → Int
  | .reacted k u t _ => if k = kind ∧ u = userId ∧ t = targetId then 1 else 0
  | .reactionRemoved k u t => if k = kind ∧ u = userId ∧ t = targetId then -1 else 0
  | _ => 0

def Event.isReacted (kind : Kind) (userId : String) (targetId : Nat) : Event → Bool
  | .reacted k u t _ => k = kind ∧ u = userId ∧ t = targetId
  | _ => false

def Event.isRemoved (kind : Kind) (userId : String) (targetId : Nat) : Event → Bool
  | .reactionRemoved k u t => k = kind ∧ u = userId ∧ t = targetId
  | _ => false

theorem sum_moves (kind : Kind) (userId : String) (targetId : Nat) (events : List Event) :
    (events.map (Event.moves kind userId targetId)).sum =
      (events.countP (Event.isReacted kind userId targetId) : Int) -
        events.countP (Event.isRemoved kind userId targetId) := by
  induction events with
  | nil => rfl
  | cons event rest ih =>
    rw [List.map_cons, List.sum_cons, ih, List.countP_cons, List.countP_cons]
    cases event with
    | reacted k u t _ =>
      simp only [Event.moves, Event.isReacted, Event.isRemoved, decide_eq_true_eq]
      split <;> simp
      omega
    | reactionRemoved k u t =>
      simp only [Event.moves, Event.isReacted, Event.isRemoved, decide_eq_true_eq]
      split <;> simp
      omega
    | _ => simp [Event.moves, Event.isReacted, Event.isRemoved]

/-- What an operation has still to announce of a pair. -/
def Notes.moves (kind : Kind) (userId : String) (targetId : Nat) : Notes → Int
  | .raises _ event | .owes event => event.moves kind userId targetId
  | _ => 0

theorem Notes.moves_of_clear {notes : Notes} (clear : notes.Clear) (kind : Kind)
    (userId : String) (targetId : Nat) : notes.moves kind userId targetId = 0 := by
  cases notes with
  | free | found id comment => rfl
  | _ => cases clear

/-- A row that is written is the first of its pair, and a deletion finds the row. -/
def Unraced (kind : Kind) (choice : Choice) (system : System) : Call → Prop
  | .createReaction k userId targetId type => k = kind →
      (system.tables.createReaction k userId targetId type
        (system.now + choice.elapsed)).isOk →
      system.tables.rowsOf k userId targetId = 0
  | .deleteReactions k userId targetId => k = kind →
      system.tables.rowsOf k userId targetId ≠ 0
  | _ => True

instance (kind : Kind) (choice : Choice) (system : System) (op : Call) :
    Decidable (Unraced kind choice system op) := by
  cases op <;> unfold Unraced <;> infer_instance

/-- What is announced and what is still to be announced adds up to the rows. -/
structure Paired (kind : Kind) (system : System) (memory : List Notes) : Prop where
  single : ∀ userId targetId, system.tables.rowsOf kind userId targetId ≤ 1
  balance : ∀ userId targetId,
    (system.emitted.map (Event.moves kind userId targetId)).sum +
      (memory.map (Notes.moves kind userId targetId)).sum =
        system.tables.rowsOf kind userId targetId

section Steps
variable {kind : Kind} {system after : System} {memory : List Notes} {i : Nat} {notes notes' : Notes}

theorem Paired.move (paired : Paired kind system memory) (remembers : memory[i]? = some notes)
    (single : ∀ userId targetId, after.tables.rowsOf kind userId targetId ≤ 1)
    (moved : ∀ userId targetId, (after.emitted.map (Event.moves kind userId targetId)).sum +
      notes'.moves kind userId targetId - after.tables.rowsOf kind userId targetId =
        (system.emitted.map (Event.moves kind userId targetId)).sum +
          notes.moves kind userId targetId - system.tables.rowsOf kind userId targetId) :
    Paired kind after (memory.set i notes') := by
  refine ⟨single, fun userId targetId => ?_⟩
  have before := paired.balance userId targetId
  have now := moved userId targetId
  rw [Pool.sum_map_set _ remembers]
  omega

/-- A call that touches neither the rows of the kind nor its announcements. -/
theorem Paired.keep (paired : Paired kind system memory) (remembers : memory[i]? = some notes)
    (rows : ∀ userId targetId,
      after.tables.rowsOf kind userId targetId = system.tables.rowsOf kind userId targetId)
    (emitted : after.emitted = system.emitted)
    (same : ∀ userId targetId,
      notes'.moves kind userId targetId = notes.moves kind userId targetId) :
    Paired kind after (memory.set i notes') := by
  refine paired.move remembers (fun u t => ?_) fun u t => ?_
  · rw [rows]
    exact paired.single u t
  · rw [rows, emitted, same]

theorem rowsOf_of_reactions {tables tables' : SocialTables}
    (same : tables'.reactions kind = tables.reactions kind) (userId : String) (targetId : Nat) :
    tables'.rowsOf kind userId targetId = tables.rowsOf kind userId targetId := by
  rw [SocialTables.rowsOf, same, SocialTables.rowsOf]

theorem reactions_handle (tables : SocialTables) (event : Event) :
    (event.handle tables).reactions kind = tables.reactions kind := by
  rcases event.handle_cases tables with ⟨same, -⟩ | ⟨raised, same, -⟩ | ⟨lowered, -, same, -⟩
  · rw [same]
  · rw [same]
    exact SocialTables.write_reactions _ _ _ _
  · rw [same]
    exact SocialTables.write_reactions _ _ _ _

theorem reactions_deliver (system : System) (i : Nat) :
    (system.deliver i).tables.reactions kind = system.tables.reactions kind := by
  simp only [System.deliver]
  split
  · rfl
  · exact reactions_handle _ _

theorem emitted_deliver (system : System) (i : Nat) :
    (system.deliver i).emitted = system.emitted := by
  simp only [System.deliver]
  split <;> rfl

theorem reactions_insertComment (tables : SocialTables) (storyId : Nat) (authorId : String)
    (parentId : Option Nat) :
    (tables.insertComment storyId authorId parentId).reactions kind = tables.reactions kind := by
  cases kind <;> rfl

theorem reactions_softDelete (tables : SocialTables) (id : Nat) :
    (tables.softDelete id).reactions kind = tables.reactions kind := by
  cases kind <;> rfl

/-- An announcement moves from what is to be announced to what has been. -/
theorem Paired.announce (paired : Paired kind system memory) {event : Event}
    (remembers : memory[i]? = some (.owes event)) :
    Paired kind (system.emit event) (memory.set i .free) := by
  simp only [System.emit]
  split
  · refine paired.move remembers paired.single fun u t => ?_
    simp only [List.map_append, List.sum_append, List.map_cons, List.map_nil, List.sum_cons,
      List.sum_nil, Notes.moves]
    omega
  · rename_i refused
    refine paired.keep remembers (fun _ _ => rfl) rfl fun u t => ?_
    -- only the creation of a comment can be refused, and that says nothing of reactions
    cases event with
    | commentCreated => rfl
    | _ => exact absurd rfl refused

end Steps

theorem paired_preserved (kind : Kind) : Pool.Preserves exec Notes.protocol
    (fun choice system _ op => Unraced kind choice system op) (Paired kind) := by
  intro choice system memory i notes op remembers paired allowed unraced
  cases op with
  | findComment id =>
    refine paired.keep remembers (fun _ _ => rfl) rfl fun u t => ?_
    rw [Notes.moves_of_clear allowed]
    simp only [exec, System.perform, Notes.protocol]
    cases system.tables.findComment id <;> rfl
  | createComment storyId authorId parentId =>
    simp only [exec, System.perform, System.written]
    cases written : system.tables.createComment storyId authorId parentId.orNull with
    | error e =>
      refine paired.keep remembers (fun _ _ => rfl) rfl fun u t => ?_
      rw [Notes.moves_of_clear allowed]
      rfl
    | ok result =>
      obtain ⟨-, -, -, after⟩ := SocialTables.createComment_eq_ok written
      refine paired.keep remembers (rowsOf_of_reactions ?_) rfl fun u t => ?_
      · change result.2.reactions kind = _
        rw [after]
        exact reactions_insertComment _ _ _ _
      · rw [Notes.moves_of_clear allowed]
        cases parentId <;> rfl
  | softDelete id =>
    refine paired.keep remembers (rowsOf_of_reactions (reactions_softDelete _ _)) rfl fun u t => ?_
    rcases allowed with ⟨comment, rfl, -⟩ | ⟨comment, rfl⟩ <;> rfl
  | incrementReplyCount id =>
    obtain ⟨event, rfl⟩ := allowed
    exact paired.keep remembers (rowsOf_of_reactions (SocialTables.write_reactions _ _ _ _)) rfl
      fun _ _ => rfl
  | decrementReplyCount parentId =>
    obtain ⟨id, comment, rfl, -⟩ := allowed
    exact paired.keep remembers (rowsOf_of_reactions (SocialTables.write_reactions _ _ _ _)) rfl
      fun _ _ => rfl
  | findReaction k u t => exact paired.keep remembers (fun _ _ => rfl) rfl fun _ _ => rfl
  | createReaction k userId targetId type =>
    simp only [exec, System.perform, System.written]
    cases written : system.tables.createReaction k userId targetId type
        (system.now + choice.elapsed) with
    | error e =>
      refine paired.keep remembers (fun _ _ => rfl) rfl fun u t => ?_
      rw [Notes.moves_of_clear allowed]
      rfl
    | ok result =>
      obtain ⟨-, after⟩ := SocialTables.createReaction_eq_ok _ _ written
      have none := fun same : k = kind => unraced same (by rw [written]; rfl)
      have rows : ∀ u t, result.2.rowsOf kind u t = system.tables.rowsOf kind u t +
          if k = kind ∧ userId = u ∧ targetId = t then 1 else 0 := by
        intro u t
        rw [after]
        exact SocialTables.rowsOf_insertReaction _ _ _ _ _ _ _ _ _
      refine paired.move remembers (fun u t => ?_) fun u t => ?_
      · change result.2.rowsOf kind u t ≤ 1
        rw [rows]
        split
        · rename_i pair
          obtain ⟨rfl, rfl, rfl⟩ := pair
          rw [none rfl]
        · exact paired.single u t
      · rw [Notes.moves_of_clear allowed]
        change _ + (Event.reacted k userId targetId type).moves kind u t -
          (result.2.rowsOf kind u t : Int) = _
        rw [rows, Event.moves]
        split <;> simp
  | updateReaction k id type =>
    exact paired.keep remembers
      (fun _ _ => SocialTables.rowsOf_updateReaction _ _ _ _ _ _ _) rfl fun _ _ => rfl
  | deleteReactions k userId targetId =>
    have rows : ∀ u t, (system.tables.deleteReactions k userId targetId).rowsOf kind u t =
        if k = kind ∧ userId = u ∧ targetId = t then 0 else system.tables.rowsOf kind u t :=
      fun u t => SocialTables.rowsOf_deleteReactions _ _ _ _ _ _ _
    refine paired.move remembers (fun u t => ?_) fun u t => ?_
    · change (system.tables.deleteReactions k userId targetId).rowsOf kind u t ≤ 1
      rw [rows]
      split
      · exact Nat.zero_le 1
      · exact paired.single u t
    · rw [Notes.moves_of_clear allowed]
      change _ + (Event.reactionRemoved k userId targetId).moves kind u t -
        ((system.tables.deleteReactions k userId targetId).rowsOf kind u t : Int) = _
      have unsaid : (exec choice system (.deleteReactions k userId targetId)).2.emitted =
          system.emitted := rfl
      rw [rows, Event.moves, unsaid]
      split
      · rename_i pair
        obtain ⟨rfl, rfl, rfl⟩ := pair
        have found := unraced rfl
        have single := paired.single userId targetId
        omega
      · rfl
  | emit event =>
    obtain rfl := allowed
    have later : Paired kind { system with now := system.now + choice.elapsed } memory :=
      ⟨paired.single, paired.balance⟩
    exact later.announce remembers
  | runHandler =>
    exact paired.keep remembers (rowsOf_of_reactions (reactions_deliver _ _))
      (emitted_deliver _ _) fun _ _ => rfl

theorem Paired.begun {kind : Kind} {system : System} (paired : Paired kind system [])
    (tasks : List Task) : Paired kind system (begun tasks) := by
  refine ⟨paired.single, fun userId targetId => ?_⟩
  rw [sum_of_clear (by simp [Social.begun, Notes.moves])]
  exact paired.balance userId targetId

/-- Where every row that is written is the first of its pair and every deletion finds its row,
a pair has at most one row at every moment, and in the end as many as was announced. -/
theorem reactions_paired {kind : Kind} {system : System} (opening : Paired kind system [])
    (tasks : List Task) {schedule : List (Nat × Choice)}
    (unraced : Pool.EachCall exec (Unraced kind) schedule (pool system tasks)) :
    let after := (pool system tasks).run exec schedule
    (∀ userId targetId, after.state.tables.rowsOf kind userId targetId ≤ 1) ∧
      (after.Finished → ∀ userId targetId,
        (after.state.emitted.countP (Event.isReacted kind userId targetId) : Int) -
          after.state.emitted.countP (Event.isRemoved kind userId targetId) =
            after.state.tables.rowsOf kind userId targetId) := by
  intro after
  have kept := (Pool.run_invariant (paired_preserved kind) (opening.begun tasks)
    (pool_follows system tasks) (Pool.meets_of_eachCall exec Notes.protocol unraced _)).1
  refine ⟨kept.single, fun finished userId targetId => ?_⟩
  have clear := Pool.post_of_finished
    (Pool.run_reaches (pool_reaches system tasks) schedule) finished
  have balance := kept.balance userId targetId
  rw [sum_of_clear fun notes member => Notes.moves_of_clear (clear notes member) _ _ _,
    sum_moves, Int.add_zero] at balance
  exact balance

/-- The turns of some threads, with as much time in between as they say. -/
def turns (order : List (Nat × Nat)) : List (Nat × Choice) :=
  order.map fun (thread, elapsed) => (thread, { elapsed })

def likes : Task := .addReaction .story "reader" 0 "like"

def unlikes : Task := .removeReaction .story "reader" 0

theorem paired_opening (stories : Nat) : Paired .story (.opening stories) [] :=
  ⟨fun _ _ => Nat.zero_le 1, fun _ _ => rfl⟩

theorem reactions_paired_liked :
    ((pool (.opening 1) [likes, unlikes, likes]).run exec
      (turns [(0, 0), (0, 0), (0, 0), (1, 0), (1, 0), (1, 0), (2, 0), (2, 0), (2, 0)])).Finished ∧
    ((pool (.opening 1) [likes, unlikes, likes]).run exec
      (turns [(0, 0), (0, 0), (0, 0), (1, 0), (1, 0), (1, 0), (2, 0), (2, 0), (2, 0)])
      ).state.tables.rowsOf .story "reader" 0 ≤ 1 :=
  ⟨by decide, (reactions_paired (paired_opening 1) [likes, unlikes, likes]
    (by decide)).1 "reader" 0⟩

/-- Both look before either writes, a millisecond apart: two rows. And both look before either
deletes: the one row is gone, and two removals are announced. -/
theorem reactions_raced :
    ¬ ((pool (.opening 1) [likes, likes]).run exec
      (turns [(0, 0), (1, 0), (0, 0), (1, 1), (0, 0), (1, 0)])).state.tables.rowsOf
        .story "reader" 0 ≤ 1 ∧
    (let after := (pool (.opening 1) [likes, unlikes, unlikes]).run exec
      (turns [(0, 0), (0, 0), (0, 0), (1, 0), (2, 0), (1, 0), (2, 0), (1, 0), (2, 0)])
    after.Finished ∧
      (after.state.emitted.countP (Event.isReacted .story "reader" 0) : Int) -
        after.state.emitted.countP (Event.isRemoved .story "reader" 0) ≠
          after.state.tables.rowsOf .story "reader" 0) := by
  decide

end Social
