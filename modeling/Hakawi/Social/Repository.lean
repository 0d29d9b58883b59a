import Hakawi.Common.Exceptions
import Hakawi.Store.Table

/-!
# Stories, comments and reactions

The rows that carry the denormalised counters and the rows the counters stand
for. Comments are never deleted, only marked; reactions are. Reactions to
stories and to comments are two tables of one shape that differ in what the
database keeps unique: a story's admits a second row of a reader as long as it
is not written in the same millisecond.
-/

namespace Social

open Common Store

structure Story where
  id : Nat
  likeCount : Nat
  commentCount : Nat
  deriving DecidableEq

structure Comment where
  id : Nat
  storyId : Nat
  authorId : String
  parentId : Option Nat
  likeCount : Nat
  replyCount : Nat
  isDeleted : Bool
  deriving DecidableEq

structure Reaction where
  id : Nat
  userId : String
  targetId : Nat
  type : String
  createdAt : Int
  deriving DecidableEq

/-- What a reaction is to. -/
inductive Kind where
  | story
  | comment
  deriving DecidableEq

/-- A denormalised counter, named by the row that carries it. -/
inductive Counter where
  | comments (storyId : Nat)
  | replies (commentId : Nat)
  | likes (kind : Kind) (targetId : Nat)
  deriving DecidableEq

/-- The comment counts in the counter. -/
def Comment.counts (comment : Comment) : Counter → Bool
  | .comments id => comment.storyId = id ∧ comment.parentId = none ∧ ¬ comment.isDeleted
  | .replies id => comment.parentId = some id ∧ ¬ comment.isDeleted
  | .likes _ _ => false

def VALID_REACTION_TYPES : List String := ["like", "love", "wow", "sad", "angry", "haunted"]

structure SocialTables where
  stories : Table Story Story.id
  comments : Table Comment Comment.id
  storyReactions : Table Reaction Reaction.id
  commentReactions : Table Reaction Reaction.id

namespace SocialTables

/-- Some stories, nothing said about them yet. -/
def opening (stories : Nat) : SocialTables where
  stories := (List.range stories).foldl (fun t _ => t.insert (⟨·, 0, 0⟩) fun _ => rfl) .empty
  comments := .empty
  storyReactions := .empty
  commentReactions := .empty

def reactions (tables : SocialTables) : Kind → Table Reaction Reaction.id
  | .story => tables.storyReactions
  | .comment => tables.commentReactions

def setReactions (tables : SocialTables) (kind : Kind) (rows : Table Reaction Reaction.id) :
    SocialTables :=
  match kind with
  | .story => { tables with storyReactions := rows }
  | .comment => { tables with commentReactions := rows }

/-- The row a counter or a reaction refers to exists. -/
def hasTarget (tables : SocialTables) : Kind → Nat → Bool
  | .story, id => (tables.stories.find? id).isSome
  | .comment, id => (tables.comments.find? id).isSome

def findComment (tables : SocialTables) (id : Nat) : Option Comment := tables.comments.find? id

def newComment (storyId : Nat) (authorId : String) (parentId : Option Nat) (id : Nat) : Comment :=
  { id, storyId, authorId, parentId, likeCount := 0, replyCount := 0, isDeleted := false }

@[simp] theorem newComment_id (storyId : Nat) (authorId : String) (parentId : Option Nat)
    (id : Nat) : (newComment storyId authorId parentId id).id = id := rfl

def insertComment (tables : SocialTables) (storyId : Nat) (authorId : String)
    (parentId : Option Nat) : SocialTables :=
  { tables with
    comments := tables.comments.insert (newComment storyId authorId parentId)
      (newComment_id storyId authorId parentId) }

def createComment (tables : SocialTables) (storyId : Nat) (authorId : String)
    (parentId : Option Nat) : Except Failure (Comment × SocialTables) :=
  if ¬ tables.hasTarget .story storyId then
    .error (.error ("insert or update on table \"comments\" violates foreign key constraint " ++
      "\"comments_story_id_fkey\""))
  else if ¬ parentId.all (tables.hasTarget .comment) then
    .error (.error ("insert or update on table \"comments\" violates foreign key constraint " ++
      "\"comments_parent_id_fkey\""))
  else
    .ok (newComment storyId authorId parentId tables.comments.next,
      tables.insertComment storyId authorId parentId)

def markDeleted (comment : Comment) : Comment := { comment with isDeleted := true }

@[simp] theorem markDeleted_id (comment : Comment) : (markDeleted comment).id = comment.id := rfl

def softDelete (tables : SocialTables) (id : Nat) : SocialTables :=
  { tables with comments := tables.comments.modify id markDeleted markDeleted_id }

/-- The rows of a reader and a target. -/
def ofPair (userId : String) (targetId : Nat) (reaction : Reaction) : Bool :=
  reaction.userId = userId ∧ reaction.targetId = targetId

def findReaction (tables : SocialTables) (kind : Kind) (userId : String) (targetId : Nat) :
    Option Reaction :=
  (tables.reactions kind).rows.find? (ofPair userId targetId)

/-- `reactions_p_unique_idx` takes in the creation time, `idx_comment_reactions_unique` does not. -/
def clashes (kind : Kind) (userId : String) (targetId : Nat) (createdAt : Int)
    (reaction : Reaction) : Bool :=
  match kind with
  | .story => ofPair userId targetId reaction && reaction.createdAt = createdAt
  | .comment => ofPair userId targetId reaction

def uniqueIndex : Kind → String
  | .story => "reactions_p_unique_idx"
  | .comment => "idx_comment_reactions_unique"

def targetConstraint : Kind → String
  | .story => "reactions_p_story_id_fk"
  | .comment => "comment_reactions_comment_id_fkey"

def newReaction (userId : String) (targetId : Nat) (type : String) (createdAt : Int) (id : Nat) :
    Reaction :=
  { id, userId, targetId, type, createdAt }

@[simp] theorem newReaction_id (userId : String) (targetId : Nat) (type : String)
    (createdAt : Int) (id : Nat) : (newReaction userId targetId type createdAt id).id = id := rfl

def insertReaction (tables : SocialTables) (kind : Kind) (userId : String) (targetId : Nat)
    (type : String) (createdAt : Int) : SocialTables :=
  tables.setReactions kind
    ((tables.reactions kind).insert (newReaction userId targetId type createdAt)
      (newReaction_id userId targetId type createdAt))

def createReaction (tables : SocialTables) (kind : Kind) (userId : String) (targetId : Nat)
    (type : String) (createdAt : Int) : Except Failure (Reaction × SocialTables) :=
  if ¬ tables.hasTarget kind targetId then
    .error (.error s!"insert violates foreign key constraint \"{targetConstraint kind}\"")
  else if (tables.reactions kind).rows.any (clashes kind userId targetId createdAt) then
    .error (.uniqueViolation (uniqueIndex kind))
  else
    .ok (newReaction userId targetId type createdAt (tables.reactions kind).next,
      tables.insertReaction kind userId targetId type createdAt)

def retype (type : String) (reaction : Reaction) : Reaction := { reaction with type }

@[simp] theorem retype_id (type : String) (reaction : Reaction) :
    (retype type reaction).id = reaction.id := rfl

def updateReaction (tables : SocialTables) (kind : Kind) (id : Nat) (type : String) :
    SocialTables :=
  tables.setReactions kind ((tables.reactions kind).modify id (retype type) (retype_id type))

/-- `deleteByUserAndStory` and `deleteByUserAndComment` -/
def deleteReactions (tables : SocialTables) (kind : Kind) (userId : String) (targetId : Nat) :
    SocialTables :=
  tables.setReactions kind ((tables.reactions kind).remove (ofPair userId targetId))

/-- `UPDATE … SET counter = change(counter) WHERE id = …` -/
def write (tables : SocialTables) (change : Nat → Nat) : Counter → SocialTables
  | .comments id => { tables with
      stories := tables.stories.modify id
        (fun s => { s with commentCount := change s.commentCount }) fun _ => rfl }
  | .replies id => { tables with
      comments := tables.comments.modify id
        (fun c => { c with replyCount := change c.replyCount }) fun _ => rfl }
  | .likes .story id => { tables with
      stories := tables.stories.modify id
        (fun s => { s with likeCount := change s.likeCount }) fun _ => rfl }
  | .likes .comment id => { tables with
      comments := tables.comments.modify id
        (fun c => { c with likeCount := change c.likeCount }) fun _ => rfl }

/-- `counter + 1` -/
def increment (tables : SocialTables) (counter : Counter) : SocialTables :=
  tables.write (· + 1) counter

/-- `greatest(counter - 1, 0)` -/
def decrement (tables : SocialTables) (counter : Counter) : SocialTables :=
  tables.write (· - 1) counter

def incrementReplyCount (tables : SocialTables) (id : Nat) := tables.increment (.replies id)

def decrementReplyCount (tables : SocialTables) (id : Nat) := tables.decrement (.replies id)

def incrementCommentCount (tables : SocialTables) (id : Nat) := tables.increment (.comments id)

def decrementCommentCount (tables : SocialTables) (id : Nat) := tables.decrement (.comments id)

def incrementLikeCount (tables : SocialTables) (kind : Kind) (id : Nat) :=
  tables.increment (.likes kind id)

def decrementLikeCount (tables : SocialTables) (kind : Kind) (id : Nat) :=
  tables.decrement (.likes kind id)

/-- What a counter says; nothing says zero. -/
def value (tables : SocialTables) : Counter → Nat
  | .comments id => ((tables.stories.find? id).map Story.commentCount).getD 0
  | .replies id => ((tables.comments.find? id).map Comment.replyCount).getD 0
  | .likes .story id => ((tables.stories.find? id).map Story.likeCount).getD 0
  | .likes .comment id => ((tables.comments.find? id).map Comment.likeCount).getD 0

/-- The row that carries the counter exists. -/
def carries (tables : SocialTables) : Counter → Bool
  | .comments id => tables.hasTarget .story id
  | .replies id => tables.hasTarget .comment id
  | .likes kind id => tables.hasTarget kind id

/-- The number of rows a counter stands for. -/
def counted (tables : SocialTables) : Counter → Nat
  | .likes kind id => (tables.reactions kind).count (·.targetId = id)
  | counter => tables.comments.count (Comment.counts · counter)

section Writes
variable (tables : SocialTables) (change : Nat → Nat) (counter other : Counter)

@[simp] theorem write_reactions (kind : Kind) :
    (tables.write change counter).reactions kind = tables.reactions kind := by
  cases counter with
  | likes written id => cases written <;> cases kind <;> rfl
  | _ => cases kind <;> rfl

/-- A write changes the one counter it names, where its row exists. -/
theorem value_write : (tables.write change counter).value other =
    if other = counter ∧ tables.carries counter then change (tables.value counter)
    else tables.value other := by
  rcases counter with id | id | ⟨_ | _, id⟩ <;> rcases other with j | j | ⟨_ | _, j⟩ <;>
    simp only [write, value, carries, hasTarget, Table.find?_modify] <;>
    by_cases same : j = id <;>
    simp [same]
  -- left are the counters of the row that is written: the row is there, or nothing is
  all_goals
    first
    | cases tables.stories.find? id <;> simp
    | cases tables.comments.find? id <;> simp

@[simp] theorem hasTarget_write (kind : Kind) (id : Nat) :
    (tables.write change counter).hasTarget kind id = tables.hasTarget kind id := by
  rcases counter with k | k | ⟨_ | _, k⟩ <;> cases kind <;>
    simp only [write, hasTarget, Table.find?_modify] <;> split <;> simp

/-- Counters are kept beside the rows they count. -/
@[simp] theorem counted_write :
    (tables.write change counter).counted other = tables.counted other := by
  cases other with
  | likes kind id => simp [counted]
  | _ =>
    rcases counter with k | k | ⟨_ | _, k⟩ <;> simp only [counted, write] <;>
      exact Table.count_modify_same _ _ fun _ => rfl

end Writes

section Reactions
variable (tables : SocialTables) (kind : Kind) (rows : Table Reaction Reaction.id)

@[simp] theorem value_setReactions (counter : Counter) :
    (tables.setReactions kind rows).value counter = tables.value counter := by
  cases kind <;> rcases counter with k | k | ⟨_ | _, k⟩ <;> rfl

@[simp] theorem hasTarget_setReactions (other : Kind) (id : Nat) :
    (tables.setReactions kind rows).hasTarget other id = tables.hasTarget other id := by
  cases kind <;> cases other <;> rfl

@[simp] theorem comments_setReactions :
    (tables.setReactions kind rows).comments = tables.comments := by
  cases kind <;> rfl

theorem reactions_setReactions (other : Kind) :
    (tables.setReactions kind rows).reactions other =
      if other = kind then rows else tables.reactions other := by
  cases kind <;> cases other <;> rfl

theorem counted_setReactions (counter : Counter) :
    (tables.setReactions kind rows).counted counter =
      match counter with
      | .likes other id =>
        if other = kind then rows.count (·.targetId = id) else tables.counted (.likes other id)
      | other => tables.counted other := by
  cases counter with
  | likes other id =>
    simp only [counted, reactions_setReactions]
    split <;> rfl
  | _ => simp [counted]

end Reactions

section Comments
variable {tables : SocialTables} {storyId : Nat} {authorId : String} {parentId : Option Nat}

theorem createComment_eq_ok {comment : Comment} {after : SocialTables}
    (ok : tables.createComment storyId authorId parentId = .ok (comment, after)) :
    tables.hasTarget .story storyId ∧ (∀ parent ∈ parentId, tables.hasTarget .comment parent) ∧
      comment = newComment storyId authorId parentId tables.comments.next ∧
      after = tables.insertComment storyId authorId parentId := by
  simp only [createComment] at ok
  split at ok
  · cases ok
  split at ok
  · cases ok
  rename_i story parent
  obtain ⟨rfl, rfl⟩ := Prod.mk.inj (Except.ok.inj ok)
  refine ⟨by simpa using story, ?_, rfl, rfl⟩
  rintro p rfl
  simpa using parent

variable (tables storyId authorId parentId)

theorem find?_insertComment (id : Nat) :
    (tables.insertComment storyId authorId parentId).comments.find? id =
      if id = tables.comments.next then some (newComment storyId authorId parentId id)
      else tables.comments.find? id := by
  rw [insertComment, Table.find?_insert]
  split
  · rename_i same
    rw [same]
  · rfl

/-- A new comment has nothing said about it. -/
@[simp] theorem value_insertComment (counter : Counter) :
    (tables.insertComment storyId authorId parentId).value counter = tables.value counter := by
  rcases counter with id | id | ⟨_ | _, id⟩ <;> simp only [value, find?_insertComment]
  · rfl
  · split
    · rename_i same
      rw [same, Table.find?_next]
      rfl
    · rfl
  · rfl
  · split
    · rename_i same
      rw [same, Table.find?_next]
      rfl
    · rfl

theorem hasTarget_insertComment {kind : Kind} {id : Nat} (exists_ : tables.hasTarget kind id) :
    (tables.insertComment storyId authorId parentId).hasTarget kind id := by
  cases kind with
  | story => exact exists_
  | comment =>
    simp only [hasTarget, find?_insertComment] at exists_ ⊢
    split
    · rfl
    · exact exists_

theorem counted_insertComment (counter : Counter) :
    (tables.insertComment storyId authorId parentId).counted counter = tables.counted counter +
      if (newComment storyId authorId parentId tables.comments.next).counts counter then 1
      else 0 := by
  cases counter with
  | likes kind id => cases kind <;> rfl
  | _ => exact Table.count_insert _ _ _ (newComment_id _ _ _)

theorem find?_softDelete (id j : Nat) : (tables.softDelete id).comments.find? j =
    if j = id then (tables.comments.find? j).map markDeleted else tables.comments.find? j :=
  Table.find?_modify _ _ _ markDeleted_id _

@[simp] theorem value_softDelete (id : Nat) (counter : Counter) :
    (tables.softDelete id).value counter = tables.value counter := by
  rcases counter with j | j | ⟨_ | _, j⟩ <;> simp only [value, find?_softDelete]
  · rfl
  · split <;> cases tables.comments.find? j <;> rfl
  · rfl
  · split <;> cases tables.comments.find? j <;> rfl

variable {tables}

/-- A comment that was live no longer counts. -/
theorem counted_softDelete {id : Nat} {comment : Comment}
    (found : tables.findComment id = some comment) (counter : Counter) :
    (tables.softDelete id).counted counter + (if comment.counts counter then 1 else 0) =
      tables.counted counter := by
  have gone : (markDeleted comment).counts counter = false := by
    cases counter <;> simp [Comment.counts, markDeleted]
  cases counter with
  | likes kind other =>
    cases kind <;> exact Nat.add_zero _
  | comments other =>
    have moved := Table.count_modify (Comment.counts · (.comments other)) markDeleted_id found
    rw [gone] at moved
    exact moved
  | replies other =>
    have moved := Table.count_modify (Comment.counts · (.replies other)) markDeleted_id found
    rw [gone] at moved
    exact moved

end Comments

section Rows
variable (tables : SocialTables) (kind other : Kind) (userId u : String) (targetId t : Nat)

/-- The number of rows of a reader and a target. -/
def rowsOf : Nat := (tables.reactions kind).count (ofPair userId targetId)

variable {tables kind} in
theorem createReaction_eq_ok {type : String} {createdAt : Int} {reaction : Reaction}
    {after : SocialTables}
    (ok : tables.createReaction kind userId targetId type createdAt = .ok (reaction, after)) :
    tables.hasTarget kind targetId ∧
      after = tables.insertReaction kind userId targetId type createdAt := by
  simp only [createReaction] at ok
  split at ok
  · cases ok
  split at ok
  · cases ok
  rename_i target clash
  exact ⟨by simpa using target, (Prod.mk.inj (Except.ok.inj ok)).2.symm⟩

theorem rowsOf_insertReaction (type : String) (createdAt : Int) :
    (tables.insertReaction kind userId targetId type createdAt).rowsOf other u t =
      tables.rowsOf other u t + if kind = other ∧ userId = u ∧ targetId = t then 1 else 0 := by
  rw [rowsOf, insertReaction, reactions_setReactions]
  by_cases same : other = kind
  · subst same
    rw [if_pos rfl, Table.count_insert]
    have first : ofPair u t (newReaction userId targetId type createdAt
        (tables.reactions other).next) = decide (userId = u ∧ targetId = t) := rfl
    rw [first]
    by_cases pair : userId = u ∧ targetId = t <;> simp [rowsOf, pair]
  · rw [if_neg same, if_neg fun ⟨same', _⟩ => same same'.symm]
    rfl

theorem counted_insertReaction (type : String) (createdAt : Int) (counter : Counter) :
    (tables.insertReaction kind userId targetId type createdAt).counted counter =
      tables.counted counter + if counter = .likes kind targetId then 1 else 0 := by
  rw [insertReaction, counted_setReactions]
  cases counter with
  | likes other id =>
    by_cases same : other = kind
    · subst same
      dsimp only
      rw [if_pos rfl, Table.count_insert]
      by_cases same : id = targetId
      · simp [counted, newReaction, same]
      · simp [counted, newReaction, same, Ne.symm same]
    · simp [same]
  | _ => simp

theorem rowsOf_updateReaction (id : Nat) (type : String) :
    (tables.updateReaction kind id type).rowsOf other u t = tables.rowsOf other u t := by
  rw [rowsOf, updateReaction, reactions_setReactions]
  split
  · rename_i same
    rw [same]
    exact Table.count_modify_same _ (retype_id type) fun _ => rfl
  · rfl

theorem counted_updateReaction (id : Nat) (type : String) (counter : Counter) :
    (tables.updateReaction kind id type).counted counter = tables.counted counter := by
  rw [updateReaction, counted_setReactions]
  cases counter with
  | likes other id =>
    dsimp only
    split
    · rename_i same
      rw [same]
      exact Table.count_modify_same _ (retype_id type) fun _ => rfl
    · rfl
  | _ => rfl

theorem rowsOf_deleteReactions :
    (tables.deleteReactions kind userId targetId).rowsOf other u t =
      if kind = other ∧ userId = u ∧ targetId = t then 0 else tables.rowsOf other u t := by
  rw [rowsOf, deleteReactions, reactions_setReactions]
  by_cases same : other = kind
  · subst same
    have split := Table.count_remove (ofPair userId targetId) (tables.reactions other) (ofPair u t)
    rw [if_pos rfl]
    by_cases pair : userId = u ∧ targetId = t
    · rw [if_pos ⟨rfl, pair⟩]
      obtain ⟨rfl, rfl⟩ := pair
      have both : (fun r => ofPair userId targetId r && ofPair userId targetId r) =
          ofPair userId targetId := funext fun r => Bool.and_self _
      rw [both] at split
      omega
    · rw [if_neg fun both => pair both.2]
      have none : (tables.reactions other).count
          (fun r => ofPair userId targetId r && ofPair u t r) = 0 := by
        refine (Table.count_eq_zero_iff _).mpr fun r _ => ?_
        simp only [ofPair, Bool.and_eq_false_imp, decide_eq_true_eq, decide_eq_false_iff_not]
        rintro ⟨rfl, rfl⟩ pair'
        exact pair pair'
      rwa [none, Nat.add_zero] at split
  · rw [if_neg same, if_neg fun ⟨same', _⟩ => same same'.symm]
    rfl

theorem counted_deleteReactions (counter : Counter) :
    (tables.deleteReactions kind userId targetId).counted counter +
      (if counter = .likes kind targetId then tables.rowsOf kind userId targetId else 0) =
        tables.counted counter := by
  rw [deleteReactions, counted_setReactions]
  cases counter with
  | likes other id =>
    by_cases same : other = kind
    · subst same
      have split := Table.count_remove (ofPair userId targetId) (tables.reactions other)
        (·.targetId = id)
      simp only [if_true, Counter.likes.injEq, true_and, counted]
      by_cases same : id = targetId
      · subst same
        have all : (fun r : Reaction => ofPair userId id r && decide (r.targetId = id)) =
            ofPair userId id := by
          funext r
          simp only [ofPair, Bool.decide_and]
          cases decide (r.targetId = id) <;> simp
        rw [all] at split
        simpa [rowsOf] using split
      · have none : (tables.reactions other).count
            (fun r => ofPair userId targetId r && decide (r.targetId = id)) = 0 := by
          refine (Table.count_eq_zero_iff _).mpr fun r _ => ?_
          simp only [ofPair, Bool.and_eq_false_imp, decide_eq_true_eq, decide_eq_false_iff_not]
          rintro ⟨rfl, rfl⟩ same'
          exact same same'.symm
        simpa [none, same] using split
    · simp [same]
  | _ => simp

variable {tables kind userId targetId}

theorem findReaction_eq_none :
    tables.findReaction kind userId targetId = none ↔ tables.rowsOf kind userId targetId = 0 := by
  simp [findReaction, rowsOf, Table.count_eq_zero_iff, List.find?_eq_none]

end Rows

end SocialTables
end Social
