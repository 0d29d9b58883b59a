import Hakawi.Social.Service

/-!
# What an operation still owes

Between its first write and its announcement an operation owes the counters
something: the announcement itself, and for a reply the write of its parent's
counter. The notes of an operation say what it owes, the protocol that it pays
before it does anything else, and that it owes nothing when it is through.
-/

namespace Social

open Common Store Effects

/-- What the handler of the event adds to a counter. -/
def Event.adds (counter : Counter) : Event → Int
  | .reacted kind _ targetId _ => if counter = .likes kind targetId then 1 else 0
  | .reactionRemoved kind _ targetId => if counter = .likes kind targetId then -1 else 0
  | .commentCreated _ storyId _ parentId =>
    if parentId.orNull = none ∧ counter = .comments storyId then 1 else 0
  | .commentDeleted _ storyId parentId =>
    if parentId = none ∧ counter = .comments storyId then -1 else 0

/-- The counter that the handler of the event lowers. -/
def Event.lowers : Event → Option Counter
  | .reactionRemoved kind _ targetId => some (.likes kind targetId)
  | .commentDeleted _ storyId none => some (.comments storyId)
  | _ => none

/-- A handler raises one counter, lowers one, or does nothing. -/
theorem Event.handle_cases (event : Event) (tables : SocialTables) :
    (event.handle tables = tables ∧ ∀ counter, event.adds counter = 0) ∨
    (∃ raised, event.handle tables = tables.increment raised ∧
      ∀ counter, event.adds counter = if counter = raised then 1 else 0) ∨
    (∃ lowered ∈ event.lowers, event.handle tables = tables.decrement lowered ∧
      ∀ counter, event.adds counter = if counter = lowered then -1 else 0) := by
  cases event with
  | reacted kind _ targetId _ =>
    exact Or.inr (Or.inl ⟨.likes kind targetId, rfl, fun _ => rfl⟩)
  | reactionRemoved kind _ targetId =>
    exact Or.inr (Or.inr ⟨.likes kind targetId, rfl, rfl, fun _ => rfl⟩)
  | commentCreated _ storyId _ parentId =>
    cases parentId with
    | value parent => exact Or.inl ⟨rfl, fun _ => rfl⟩
    | _ => exact Or.inr (Or.inl ⟨.comments storyId, rfl, fun _ => by simp [adds, Optional.orNull]⟩)
  | commentDeleted _ storyId parentId =>
    cases parentId with
    | some parent => exact Or.inl ⟨rfl, fun _ => by simp [adds]⟩
    | none => exact Or.inr (Or.inr ⟨.comments storyId, rfl, rfl, fun _ => by simp [adds]⟩)

inductive Notes where
  /-- nothing is owed -/
  | free
  /-- a comment was read under an id -/
  | found (id : Nat) (comment : Comment)
  /-- the counter of its parent is lowered, the comment not yet deleted -/
  | lowered (id : Nat) (comment : Comment)
  /-- a reply is written, the counter of its parent not yet raised -/
  | raises (parentId : Nat) (event : Event)
  /-- all but the announcement is done -/
  | owes (event : Event)

namespace Notes

def Clear : Notes → Prop
  | free | found _ _ => True
  | _ => False

theorem Clear.free : Clear .free := trivial

theorem Clear.found (id : Nat) (comment : Comment) : Clear (.found id comment) := trivial

/-- What the operation will still add to a counter, or take from what it counts. -/
def adds (counter : Counter) : Notes → Int
  | free | found _ _ => 0
  | lowered _ comment => if comment.parentId.map Counter.replies = some counter then 1 else 0
  | raises parentId event => (if counter = .replies parentId then 1 else 0) + event.adds counter
  | owes event => event.adds counter

def allowed (notes : Notes) : Call → Prop
  | .softDelete id => (∃ comment, notes = found id comment ∧ comment.parentId = none) ∨
      ∃ comment, notes = lowered id comment
  | .incrementReplyCount parentId => ∃ event, notes = raises parentId event
  | .decrementReplyCount parentId =>
    ∃ id comment, notes = found id comment ∧ comment.parentId = some parentId
  | .emit event => notes = owes event
  | _ => notes.Clear

def next (notes : Notes) : (call : Call) → call.Answer → Notes
  | .findComment id, some comment => found id comment
  | .findComment _, none => free
  | .createComment _ _ parentId, .ok comment =>
    let event := .commentCreated comment.id comment.storyId comment.authorId parentId
    match parentId with
    | .value parent => raises parent event
    | _ => owes event
  | .createComment _ _ _, .error _ => free
  | .softDelete _, _ =>
    match notes with
    | found id comment | lowered id comment =>
      owes (.commentDeleted id comment.storyId comment.parentId)
    | other => other
  | .incrementReplyCount _, _ =>
    match notes with
    | raises _ event => owes event
    | other => other
  | .decrementReplyCount _, _ =>
    match notes with
    | found id comment => lowered id comment
    | other => other
  | .createReaction kind userId targetId type, .ok _ => owes (.reacted kind userId targetId type)
  | .createReaction _ _ _ _, .error _ => free
  | .deleteReactions kind userId targetId, _ => owes (.reactionRemoved kind userId targetId)
  | .emit _, _ => free
  | _, _ => notes

def protocol : Protocol Call Call.Answer Notes := ⟨allowed, next⟩

@[simp] theorem protocol_spec (call : Call) (Q : call.Answer → Notes → Prop) (notes : Notes) :
    protocol.spec call Q notes = (notes.allowed call ∧ ∀ r, Q r (notes.next call r)) := rfl

@[simp] theorem adds_of_clear {notes : Notes} (clear : notes.Clear) (counter : Counter) :
    notes.adds counter = 0 := by
  cases notes with
  | free | found id comment => rfl
  | _ => cases clear

end Notes

open Notes

section Rules
variable {α β : Type} {Q : Except Failure β → Notes → Prop} {notes : Notes}

/-- A call that is allowed, and what comes after each of its answers. -/
theorem wpE_call_next {op : Call} {next : op.Answer → Handler β} (allowed : notes.allowed op)
    (goes : ∀ r, wpE protocol.spec (next r) Q (notes.next op r)) :
    wpE protocol.spec (call op >>= next) Q notes := by
  simp only [wpE_bind, call, wpE_mk_call, Program.wp_done, protocol_spec]
  exact ⟨allowed, goes⟩

theorem wpE_last {op : Call} {Q : Except Failure op.Answer → Notes → Prop}
    (allowed : notes.allowed op) (goes : ∀ r, Q (.ok r) (notes.next op r)) :
    wpE protocol.spec (call op) Q notes := by
  simp only [call, wpE_mk_call, Program.wp_done, protocol_spec]
  exact ⟨allowed, goes⟩

end Rules

section Operations
variable {notes : Notes}

theorem raiseReplyCount_clears {parentId : Optional Nat} {event : Event}
    (owing : notes = match parentId with
      | .value parent => raises parent event
      | _ => owes event) :
    wpE protocol.spec (do raiseReplyCount parentId; call (.emit event))
      (fun _ notes => notes.Clear) notes := by
  subst owing
  cases parentId with
  | value parent =>
    exact wpE_call_next ⟨event, rfl⟩ fun _ => wpE_last rfl fun _ => trivial
  | undefined => exact wpE_last rfl fun _ => trivial
  | null => exact wpE_last rfl fun _ => trivial

theorem validateParent_clears (clear : notes.Clear) (input : CreateCommentInput) :
    wpE protocol.spec (validateParent input) (fun _ notes => notes.Clear) notes := by
  rw [validateParent]
  cases input.parentId with
  | value parent =>
    refine wpE_call_next clear fun found => ?_
    rw [wpE_liftM]
    cases found with
    | none => trivial
    | some comment => trivial
  | _ => exact clear

theorem create_clears (clear : notes.Clear) (input : CreateCommentInput) :
    wpE protocol.spec (CommentsService.create input) (fun _ notes => notes.Clear) notes := by
  rw [CommentsService.create, wpE_bind]
  refine wpE_mono protocol.spec_monotone (fun result notes clear => ?_)
    (validateParent_clears clear input)
  cases result with
  | error e => exact clear
  | ok _ =>
    refine wpE_call_next clear fun answer => ?_
    cases answer with
    | error e => exact wpE_liftM_bind _ (fun _ _ => trivial) (fun _ ok => by cases ok)
    | ok comment =>
      refine wpE_liftM_bind _ (fun _ failed => by cases failed) fun _ ok => ?_
      cases ok
      exact raiseReplyCount_clears rfl

theorem delete_clears (clear : notes.Clear) (id : Nat) (authorId : String) :
    wpE protocol.spec (CommentsService.delete id authorId) (fun _ notes => notes.Clear) notes := by
  refine wpE_call_next clear fun found => ?_
  cases found with
  | none => exact wpE_liftM_bind _ (fun _ _ => trivial) fun _ ok => by cases ok
  | some comment =>
    refine wpE_liftM_bind _ (fun _ _ => trivial) fun read live => ?_
    have same : read = comment := by
      simp only [CommentsService.live] at live
      split at live
      · cases live
      · exact (Except.ok.inj live).symm
    subst same
    refine wpE_liftM_bind _ (fun _ _ => trivial) fun _ _ => ?_
    cases parent : read.parentId with
    | none =>
      refine wpE_call_next (Or.inl ⟨read, rfl, parent⟩) fun _ => ?_
      exact wpE_last (by simp [allowed, next, parent]) fun _ => trivial
    | some parentId =>
      refine wpE_call_next ⟨id, read, rfl, parent⟩ fun _ => ?_
      refine wpE_call_next (Or.inr ⟨read, rfl⟩) fun _ => ?_
      exact wpE_last (by simp [allowed, next, parent]) fun _ => trivial

theorem contentRemoved_clears (clear : notes.Clear) (targetId : Nat) :
    wpE protocol.spec (handleModerationContentRemoved targetId) (fun _ notes => notes.Clear)
      notes := by
  refine wpE_call_next clear fun found => ?_
  cases found with
  | none => trivial
  | some comment =>
    simp only [wpE_ite]
    split
    · trivial
    · rw [wpE_tryCatch]
      refine wpE_mono protocol.spec_monotone (fun result notes clear => ?_)
        (delete_clears (.found _ _) comment.id comment.authorId)
      cases result with
      | error e => exact clear
      | ok _ => exact clear

theorem react_clears (clear : notes.Clear) (kind : Kind) (userId : String) (targetId : Nat)
    (type : String) :
    wpE protocol.spec (react kind userId targetId type) (fun _ notes => notes.Clear) notes := by
  refine wpE_call_next clear fun found => ?_
  cases found with
  | some existing => exact wpE_last clear fun _ => clear
  | none =>
    refine wpE_call_next clear fun answer => ?_
    cases answer with
    | error e => exact wpE_liftM_bind _ (fun _ _ => trivial) fun _ ok => by cases ok
    | ok reaction =>
      refine wpE_liftM_bind _ (fun _ failed => by cases failed) fun _ _ => ?_
      exact wpE_last rfl fun _ => trivial

theorem unreact_clears (clear : notes.Clear) (kind : Kind) (userId : String) (targetId : Nat) :
    wpE protocol.spec (unreact kind userId targetId) (fun _ notes => notes.Clear) notes := by
  refine wpE_call_next clear fun found => ?_
  cases found with
  | none => exact clear
  | some existing =>
    refine wpE_call_next clear fun _ => ?_
    exact wpE_last rfl fun _ => trivial

/-- A comment is looked up and has to be live; nothing is owed for that. -/
theorem lookedUp_clears (clear : notes.Clear) (commentId : Nat) {rest : Handler Unit}
    (goes : ∀ notes : Notes, notes.Clear →
      wpE protocol.spec rest (fun _ notes => notes.Clear) notes) :
    wpE protocol.spec (do
      let _ ← CommentsService.live (← call (.findComment commentId))
      rest) (fun _ notes => notes.Clear) notes := by
  refine wpE_call_next clear fun found => ?_
  cases found with
  | none => exact wpE_liftM_bind _ (fun _ _ => trivial) fun _ _ => goes _ trivial
  | some comment => exact wpE_liftM_bind _ (fun _ _ => trivial) fun _ _ => goes _ trivial

/-- Every operation pays what it owes before it ends, however it ends. -/
theorem handler_clears (task : Task) :
    protocol.Reaches (fun _ notes => notes.Clear) .free task.handler.run := by
  change wpE protocol.spec task.handler (fun _ notes => notes.Clear) .free
  cases task with
  | createComment input => exact create_clears .free input
  | deleteComment id authorId => exact delete_clears .free id authorId
  | contentRemoved commentId => exact contentRemoved_clears .free commentId
  | addReaction kind userId targetId type =>
    cases kind with
    | story =>
      exact wpE_liftM_bind _ (fun _ _ => trivial) fun _ _ => react_clears .free .story _ _ _
    | comment =>
      refine wpE_liftM_bind _ (fun _ _ => trivial) fun _ _ => ?_
      exact lookedUp_clears .free targetId fun _ clear => react_clears clear .comment _ _ _
  | removeReaction kind userId targetId =>
    cases kind with
    | story => exact unreact_clears .free .story _ _
    | comment => exact lookedUp_clears .free targetId fun _ clear => unreact_clears clear _ _ _
  | eventHandler => exact wpE_last trivial fun _ => trivial

/-- The requests before they begin: none of them owes anything. -/
def begun (tasks : List Task) : List Notes := tasks.map fun _ => .free

theorem pool_reaches (system : System) (tasks : List Task) :
    List.Forall₂ (protocol.Reaches fun _ notes => notes.Clear) (begun tasks)
      (pool system tasks).threads := by
  induction tasks with
  | nil => exact .nil
  | cons task rest ih => exact .cons (handler_clears task) ih

theorem pool_follows (system : System) (tasks : List Task) :
    Pool.Follow protocol (begun tasks) (pool system tasks) :=
  (pool_reaches system tasks).imp fun _ _ reaches => reaches.follows

/-- Operations that owe nothing weigh nothing. -/
theorem sum_of_clear {weigh : Notes → Int} {memory : List Notes}
    (weightless : ∀ notes ∈ memory, weigh notes = 0) : (memory.map weigh).sum = 0 := by
  induction memory with
  | nil => rfl
  | cons notes rest ih =>
    rw [List.map_cons, List.sum_cons, weightless notes List.mem_cons_self,
      ih fun n member => weightless n (List.mem_cons_of_mem _ member), Int.zero_add]

end Operations
end Social
