import Hakawi.Social.Protocol

/-!
# Where comments belong

A comment stays under its story and its parent whatever is written, and rows
refer to rows that exist. What an operation has read of a comment therefore
stays true while others write.
-/

namespace Social

open Common Store Effects

namespace SocialTables
variable {tables before after : SocialTables}

/-- Where a comment belongs. -/
def thread (comment : Comment) : Nat × Option Nat := (comment.storyId, comment.parentId)

/-- The same stories and comments, each where it was. -/
structure SameThreads (before after : SocialTables) : Prop where
  comments : ∀ id, (after.findComment id).map thread = (before.findComment id).map thread
  stories : ∀ id, after.hasTarget .story id = before.hasTarget .story id

/-- No story and no comment is gone or moved. -/
structure Extends (before after : SocialTables) : Prop where
  targets : ∀ kind id, before.hasTarget kind id → after.hasTarget kind id
  comments : ∀ id comment, before.findComment id = some comment →
    ∃ later, after.findComment id = some later ∧ thread later = thread comment

/-- Rows refer to rows. -/
structure Referential (tables : SocialTables) : Prop where
  comments : ∀ id comment, tables.findComment id = some comment →
    tables.hasTarget .story comment.storyId ∧
      ∀ parent ∈ comment.parentId, tables.hasTarget .comment parent
  reactions : ∀ kind, ∀ reaction ∈ (tables.reactions kind).rows,
    tables.hasTarget kind reaction.targetId

theorem SameThreads.targets (same : SameThreads before after) (kind : Kind) (id : Nat) :
    after.hasTarget kind id = before.hasTarget kind id := by
  cases kind with
  | story => exact same.stories id
  | comment =>
    have both := congrArg Option.isSome (same.comments id)
    rwa [Option.isSome_map, Option.isSome_map] at both

theorem SameThreads.extends (same : SameThreads before after) : Extends before after := by
  refine ⟨fun kind id there => by rwa [same.targets], fun id comment found => ?_⟩
  have here := same.comments id
  rw [found] at here
  exact Option.map_eq_some_iff.mp here

theorem Referential.same (referential : before.Referential) (same : SameThreads before after)
    (reactions : ∀ kind, ∀ reaction ∈ (after.reactions kind).rows,
      before.hasTarget kind reaction.targetId) : after.Referential := by
  refine ⟨fun id comment found => ?_, fun kind reaction member => ?_⟩
  · have here := same.comments id
    rw [found] at here
    obtain ⟨earlier, found', at_⟩ := Option.map_eq_some_iff.mp here.symm
    obtain ⟨story, parent⟩ := Prod.mk.inj at_
    have known := referential.comments id earlier found'
    simp only [same.targets]
    rw [← story, ← parent]
    exact known
  · rw [same.targets]
    exact reactions kind reaction member

theorem sameThreads_write (change : Nat → Nat) (counter : Counter) :
    SameThreads tables (tables.write change counter) := by
  refine ⟨fun id => ?_, fun id => hasTarget_write _ _ _ _ _⟩
  rcases counter with k | k | ⟨_ | _, k⟩ <;>
    simp only [write, findComment, Table.find?_modify] <;> split <;>
    cases tables.comments.find? id <;> rfl

theorem sameThreads_softDelete (id : Nat) : SameThreads tables (tables.softDelete id) := by
  refine ⟨fun j => ?_, fun _ => rfl⟩
  simp only [findComment, find?_softDelete]
  split <;> cases tables.comments.find? j <;> rfl

theorem sameThreads_setReactions (kind : Kind) (rows : Table Reaction Reaction.id) :
    SameThreads tables (tables.setReactions kind rows) :=
  ⟨fun id => by rw [findComment, comments_setReactions, findComment],
    fun id => hasTarget_setReactions _ _ _ _ _⟩

theorem extends_insertComment (storyId : Nat) (authorId : String) (parentId : Option Nat) :
    Extends tables (tables.insertComment storyId authorId parentId) := by
  refine ⟨fun kind id there => hasTarget_insertComment _ _ _ _ there, fun id comment found => ?_⟩
  refine ⟨comment, ?_, rfl⟩
  have older := Table.lt_next_of_find? found
  rw [findComment, find?_insertComment, if_neg (by omega)]
  exact found

theorem Referential.insertComment (referential : tables.Referential) {storyId : Nat}
    (authorId : String) {parentId : Option Nat} (story : tables.hasTarget .story storyId)
    (parent : ∀ id ∈ parentId, tables.hasTarget .comment id) :
    (tables.insertComment storyId authorId parentId).Referential := by
  have extends_ : Extends tables _ := extends_insertComment storyId authorId parentId
  have kept := extends_.targets
  refine ⟨fun id comment found => ?_, fun kind reaction member => ?_⟩
  · rw [findComment, find?_insertComment] at found
    split at found
    · obtain rfl := Option.some.inj found
      exact ⟨kept _ _ story, fun p known => kept _ _ (parent p known)⟩
    · obtain ⟨story', parent'⟩ := referential.comments id comment found
      exact ⟨kept _ _ story', fun p known => kept _ _ (parent' p known)⟩
  · refine kept _ _ (referential.reactions kind reaction ?_)
    cases kind <;> exact member

theorem Referential.write (referential : tables.Referential) (change : Nat → Nat)
    (counter : Counter) : (tables.write change counter).Referential := by
  refine referential.same (sameThreads_write change counter) fun kind reaction member => ?_
  rw [write_reactions] at member
  exact referential.reactions kind reaction member

theorem Referential.softDelete (referential : tables.Referential) (id : Nat) :
    (tables.softDelete id).Referential := by
  refine referential.same (sameThreads_softDelete id) fun kind reaction member => ?_
  refine referential.reactions kind reaction ?_
  cases kind <;> exact member

/-- New rows of reactions have to refer to something; the others already do. -/
theorem Referential.setReactions (referential : tables.Referential) {kind : Kind}
    {rows : Table Reaction Reaction.id}
    (known : ∀ reaction ∈ rows.rows, tables.hasTarget kind reaction.targetId) :
    (tables.setReactions kind rows).Referential := by
  refine referential.same (sameThreads_setReactions kind rows) fun other reaction member => ?_
  rw [reactions_setReactions] at member
  split at member
  · rename_i same
    rw [same]
    exact known reaction member
  · exact referential.reactions other reaction member

theorem Referential.insertReaction (referential : tables.Referential) {kind : Kind}
    {targetId : Nat} (target : tables.hasTarget kind targetId) (userId type : String)
    (createdAt : Int) :
    (tables.insertReaction kind userId targetId type createdAt).Referential := by
  refine referential.setReactions fun reaction member => ?_
  rcases List.mem_append.mp member with old | new
  · exact referential.reactions kind reaction old
  · rw [List.mem_singleton.mp new]
    exact target

theorem Referential.updateReaction (referential : tables.Referential) (kind : Kind) (id : Nat)
    (type : String) : (tables.updateReaction kind id type).Referential := by
  refine referential.setReactions fun reaction member => ?_
  obtain ⟨old, known, rfl⟩ := List.mem_map.mp member
  have target := referential.reactions kind old known
  split <;> exact target

theorem Referential.deleteReactions (referential : tables.Referential) (kind : Kind)
    (userId : String) (targetId : Nat) :
    (tables.deleteReactions kind userId targetId).Referential :=
  referential.setReactions fun reaction member =>
    referential.reactions kind reaction ((Table.mem_remove _).mp member).1

theorem sameThreads_handle (event : Event) : SameThreads tables (event.handle tables) := by
  rcases event.handle_cases tables with ⟨same, -⟩ | ⟨raised, same, -⟩ | ⟨lowered, -, same, -⟩
  · rw [same]
    exact ⟨fun _ => rfl, fun _ => rfl⟩
  · rw [same]
    exact sameThreads_write _ raised
  · rw [same]
    exact sameThreads_write _ lowered

theorem Referential.handle (referential : tables.Referential) (event : Event) :
    (event.handle tables).Referential := by
  rcases event.handle_cases tables with ⟨same, -⟩ | ⟨raised, same, -⟩ | ⟨lowered, -, same, -⟩
  · rwa [same]
  · rw [same]
    exact referential.write _ raised
  · rw [same]
    exact referential.write _ lowered

theorem referential_opening (stories : Nat) : (opening stories).Referential := by
  refine ⟨fun id comment found => ?_, fun kind reaction member => ?_⟩
  · cases found
  · cases kind <;> cases member

end SocialTables
end Social
