import Hakawi.Social.Threads

/-!
# What the counters say

A counter lags behind the rows it counts by what is still to be announced and
still to be handled. The books are the counters, the announcements that wait and
what each operation owes; they balance at every moment, and when nothing waits
and nothing is owed, the counters are right.
-/

namespace Social

open Common Store Effects

/-- A write does what it stands for: what is deleted is there, and just once, an event passes
its schema, and what is lowered is not at zero. -/
def Steady (choice : Choice) (system : System) : Call → Prop
  | .softDelete id => ∃ comment ∈ system.tables.findComment id, comment.isDeleted = false
  | .decrementReplyCount id => 0 < system.tables.value (.replies id)
  | .deleteReactions kind userId targetId => system.tables.rowsOf kind userId targetId = 1
  | .emit event => event.isValid = true
  | .runHandler => ∀ event ∈ system.pending[choice.event]?, ∀ counter ∈ event.lowers,
      0 < system.tables.value counter
  | _ => True

instance (choice : Choice) (system : System) : (op : Call) → Decidable (Steady choice system op)
  | .softDelete _ => inferInstanceAs (Decidable (∃ _ ∈ _, _))
  | .decrementReplyCount _ => inferInstanceAs (Decidable (0 < _))
  | .deleteReactions .. => inferInstanceAs (Decidable (_ = 1))
  | .emit _ => inferInstanceAs (Decidable (_ = true))
  | .runHandler => inferInstanceAs (Decidable (∀ _ ∈ _, ∀ _ ∈ _, 0 < _))
  | .findComment _ | .createComment .. | .incrementReplyCount _ | .findReaction ..
  | .createReaction .. | .updateReaction .. => .isTrue trivial

/-- The counters say what there is. -/
structure SocialTables.Accurate (tables : SocialTables) : Prop where
  commentCounts : ∀ story ∈ tables.stories.rows, story.commentCount =
    tables.comments.count fun c => c.storyId = story.id ∧ c.parentId = none ∧ ¬ c.isDeleted
  replyCounts : ∀ comment ∈ tables.comments.rows, comment.replyCount =
    tables.comments.count fun c => c.parentId = some comment.id ∧ ¬ c.isDeleted
  storyLikes : ∀ story ∈ tables.stories.rows, story.likeCount =
    tables.storyReactions.count (·.targetId = story.id)
  commentLikes : ∀ comment ∈ tables.comments.rows, comment.likeCount =
    tables.commentReactions.count (·.targetId = comment.id)

namespace SocialTables
variable {tables : SocialTables}

theorem accurate_iff : tables.Accurate ↔
    (∀ story ∈ tables.stories.rows, story.commentCount =
      tables.comments.count fun c => c.storyId = story.id ∧ c.parentId = none ∧ ¬ c.isDeleted) ∧
    (∀ comment ∈ tables.comments.rows, comment.replyCount =
      tables.comments.count fun c => c.parentId = some comment.id ∧ ¬ c.isDeleted) ∧
    (∀ story ∈ tables.stories.rows, story.likeCount =
      tables.storyReactions.count (·.targetId = story.id)) ∧
    (∀ comment ∈ tables.comments.rows, comment.likeCount =
      tables.commentReactions.count (·.targetId = comment.id)) :=
  ⟨fun ⟨comments, replies, likes, reactions⟩ => ⟨comments, replies, likes, reactions⟩,
    fun ⟨comments, replies, likes, reactions⟩ => ⟨comments, replies, likes, reactions⟩⟩

instance : Decidable tables.Accurate := decidable_of_iff _ accurate_iff.symm

/-- Counters that agree with their counts are the counters of the rows. -/
theorem accurate_of_value (agree : ∀ counter, tables.value counter = tables.counted counter) :
    tables.Accurate := by
  have stored : ∀ story ∈ tables.stories.rows, tables.stories.find? story.id = some story :=
    fun story member => Table.find?_eq_some_iff.mpr ⟨member, rfl⟩
  have written : ∀ comment ∈ tables.comments.rows,
      tables.comments.find? comment.id = some comment :=
    fun comment member => Table.find?_eq_some_iff.mpr ⟨member, rfl⟩
  constructor
  · intro story member
    have said : tables.value (.comments story.id) = story.commentCount := by
      simp [value, stored story member]
    exact said.symm.trans (agree _)
  · intro comment member
    have said : tables.value (.replies comment.id) = comment.replyCount := by
      simp [value, written comment member]
    exact said.symm.trans (agree _)
  · intro story member
    have said : tables.value (.likes .story story.id) = story.likeCount := by
      simp [value, stored story member]
    exact said.symm.trans (agree _)
  · intro comment member
    have said : tables.value (.likes .comment comment.id) = comment.likeCount := by
      simp [value, written comment member]
    exact said.symm.trans (agree _)

theorem carries_of_value_pos {counter : Counter} (positive : 0 < tables.value counter) :
    tables.carries counter := by
  rcases counter with id | id | ⟨_ | _, id⟩ <;>
    simp only [value, carries, hasTarget] at positive ⊢
  · cases found : tables.stories.find? id <;> simp_all
  · cases found : tables.comments.find? id <;> simp_all
  · cases found : tables.stories.find? id <;> simp_all
  · cases found : tables.comments.find? id <;> simp_all

theorem value_increment {counter : Counter} (there : tables.carries counter) (other : Counter) :
    (tables.increment counter).value other =
      tables.value other + if other = counter then 1 else 0 := by
  rw [increment, value_write]
  by_cases same : other = counter
  · subst same
    simp [there]
  · simp [same]

/-- Above zero, the floor does not matter. -/
theorem value_decrement {counter : Counter} (positive : 0 < tables.value counter)
    (other : Counter) :
    (tables.decrement counter).value other + (if other = counter then 1 else 0) =
      tables.value other := by
  rw [decrement, value_write]
  by_cases same : other = counter
  · subst same
    simp [carries_of_value_pos positive]
    omega
  · simp [same]

end SocialTables

/-- What the event is about exists. -/
def Event.Grounded (tables : SocialTables) (event : Event) : Prop :=
  ∀ counter, event.adds counter ≠ 0 → tables.carries counter

theorem SocialTables.Extends.carries {before after : SocialTables}
    (extends_ : before.Extends after) {counter : Counter} (there : before.carries counter) :
    after.carries counter := by
  cases counter with
  | comments id => exact extends_.targets .story id there
  | replies id => exact extends_.targets .comment id there
  | likes kind id => exact extends_.targets kind id there

/-- A handler adds what its event adds, unless it would have to go below zero. -/
theorem value_handle {tables : SocialTables} {event : Event} (grounded : event.Grounded tables)
    (positive : ∀ counter ∈ event.lowers, 0 < tables.value counter) (counter : Counter) :
    ((event.handle tables).value counter : Int) = tables.value counter + event.adds counter := by
  rcases event.handle_cases tables with ⟨same, adds⟩ | ⟨raised, same, adds⟩ |
    ⟨lowered, lowers, same, adds⟩
  · rw [same, adds]
    simp
  · have there : tables.carries raised := grounded raised (by simp [adds])
    rw [same, adds, SocialTables.value_increment there]
    split <;> simp
  · have floor := SocialTables.value_decrement (positive lowered lowers) counter
    rw [same, adds]
    split <;> simp_all
    omega

namespace Notes

/-- What an operation has read and what it owes refers to rows that are there. -/
def Grounded (tables : SocialTables) : Notes → Prop
  | free => True
  | found id comment | lowered id comment => ∃ row, tables.findComment id = some row ∧
      SocialTables.thread row = SocialTables.thread comment
  | raises parentId event => tables.hasTarget .comment parentId ∧ event.Grounded tables
  | owes event => event.Grounded tables

theorem Grounded.extend {before after : SocialTables} {notes : Notes}
    (grounded : notes.Grounded before) (extends_ : before.Extends after) :
    notes.Grounded after := by
  have later : ∀ event : Event, event.Grounded before → event.Grounded after :=
    fun _ known counter adds => extends_.carries (known counter adds)
  cases notes with
  | free => trivial
  | found id comment | lowered id comment =>
    obtain ⟨row, found, same⟩ := grounded
    obtain ⟨row', found', same'⟩ := extends_.comments id row found
    exact ⟨row', found', same'.trans same⟩
  | raises parentId event => exact ⟨extends_.targets _ _ grounded.1, later event grounded.2⟩
  | owes event => exact later event grounded

end Notes

/-- The books: a counter, what waits for its handler and what is owed make up the count. -/
structure Balanced (system : System) (memory : List Notes) : Prop where
  balance : ∀ counter, (system.tables.value counter : Int) +
    (system.pending.map (Event.adds counter)).sum + (memory.map (Notes.adds counter)).sum =
      system.tables.counted counter
  pending : ∀ event ∈ system.pending, event.Grounded system.tables
  memory : ∀ notes ∈ memory, notes.Grounded system.tables
  referential : system.tables.Referential

section Steps
variable {system after : System} {memory : List Notes} {i : Nat} {notes notes' : Notes}

theorem Balanced.move (balanced : Balanced system memory) (remembers : memory[i]? = some notes)
    (extends_ : system.tables.Extends after.tables)
    (moved : ∀ counter, (after.tables.value counter : Int) +
      (after.pending.map (Event.adds counter)).sum + notes'.adds counter -
        after.tables.counted counter =
          (system.tables.value counter : Int) +
            (system.pending.map (Event.adds counter)).sum + notes.adds counter -
              system.tables.counted counter)
    (pending : ∀ event ∈ after.pending, event.Grounded after.tables)
    (grounded : notes'.Grounded after.tables) (referential : after.tables.Referential) :
    Balanced after (memory.set i notes') := by
  refine ⟨fun counter => ?_, pending, ?_, referential⟩
  · have before := balanced.balance counter
    have now := moved counter
    rw [Pool.sum_map_set _ remembers]
    omega
  · exact Pool.forall_mem_set
      (fun other member => (balanced.memory other member).extend extends_) grounded

/-- A call that only touches the tables. -/
theorem Balanced.write (balanced : Balanced system memory) (remembers : memory[i]? = some notes)
    {tables : SocialTables} {now : Int} (extends_ : system.tables.Extends tables)
    (moved : ∀ counter, (tables.value counter : Int) + notes'.adds counter -
      tables.counted counter = (system.tables.value counter : Int) + notes.adds counter -
        system.tables.counted counter)
    (grounded : notes'.Grounded tables) (referential : tables.Referential) :
    Balanced { system with now, tables } (memory.set i notes') := by
  refine balanced.move remembers extends_ (fun counter => ?_) (fun event member => ?_) grounded
    referential
  · have now := moved counter
    dsimp only
    omega
  · exact fun counter adds => extends_.carries (balanced.pending event member counter adds)

/-- What the creation of a comment owes is that one comment. -/
theorem adds_created (comment : Comment) (parentId : Optional Nat) (same : comment.parentId =
    parentId.orNull) (live : comment.isDeleted = false) (counter : Counter) :
    (Notes.next .free (.createComment comment.storyId comment.authorId parentId)
      (.ok comment)).adds counter = if comment.counts counter then 1 else 0 := by
  have top : comment.parentId = none → (Event.adds counter (.commentCreated comment.id
      comment.storyId comment.authorId parentId)) = if comment.counts counter then 1 else 0 := by
    intro none
    rw [none] at same
    cases counter <;> simp [Event.adds, Comment.counts, none, ← same, live, eq_comm]
  cases parentId with
  | undefined => exact top same
  | null => exact top same
  | value parent =>
    simp only [Notes.next, Notes.adds, Event.adds]
    cases counter <;> simp [Comment.counts, same, live, Optional.orNull, eq_comm]

/-- Deleting a comment that is live takes away what it counted. -/
theorem adds_deleted (comment : Comment) (live : comment.isDeleted = false) (id : Nat)
    (counter : Counter) :
    (Notes.lowered id comment).adds counter -
      (Event.commentDeleted id comment.storyId comment.parentId).adds counter =
        if comment.counts counter then 1 else 0 := by
  cases parent : comment.parentId <;> cases counter <;>
    simp [Notes.adds, Event.adds, Comment.counts, parent, live, eq_comm]
  split <;> rfl

/-- What a deletion owes depends on where the comment belongs, and on nothing else. -/
theorem adds_of_thread {row comment : Comment}
    (same : SocialTables.thread row = SocialTables.thread comment) (id : Nat) (counter : Counter) :
    (Notes.lowered id row).adds counter = (Notes.lowered id comment).adds counter ∧
      (Event.commentDeleted id row.storyId row.parentId).adds counter =
        (Event.commentDeleted id comment.storyId comment.parentId).adds counter := by
  obtain ⟨story, parent⟩ := Prod.mk.inj same
  rw [story, parent]
  exact ⟨by simp only [Notes.adds, parent], rfl⟩

/-- A live comment is deleted by an operation that has lowered what there was to lower. -/
theorem Balanced.softDelete (balanced : Balanced system memory) {id : Nat} {comment : Comment}
    (remembers : memory[i]? = some notes) (grounded : (Notes.found id comment).Grounded
      system.tables) (owing : ∀ counter, notes.adds counter =
        (Notes.lowered id comment).adds counter)
    (live : ∃ row ∈ system.tables.findComment id, row.isDeleted = false) (now : Int) :
    Balanced { system with now, tables := system.tables.softDelete id } (memory.set i
      (.owes (.commentDeleted id comment.storyId comment.parentId))) := by
  obtain ⟨row, found, live⟩ := live
  obtain ⟨row', found', thread⟩ := grounded
  obtain rfl : row = row' := Option.some.inj (found.symm.trans found')
  have same : system.tables.SameThreads (system.tables.softDelete id) :=
    SocialTables.sameThreads_softDelete id
  refine balanced.write remembers same.extends (fun counter => ?_) (fun counter adds => ?_)
    (balanced.referential.softDelete id)
  · have gone := SocialTables.counted_softDelete found counter
    have taken := adds_deleted row live id counter
    obtain ⟨lowers, told⟩ := adds_of_thread thread id counter
    rw [SocialTables.value_softDelete, owing, ← lowers]
    change _ + (Event.commentDeleted id comment.storyId comment.parentId).adds counter - _ = _
    rw [← told]
    split at gone <;> simp_all <;> omega
  · have story := (balanced.referential.comments id row found).1
    rw [(Prod.mk.inj thread).1] at story
    simp only [Event.adds] at adds
    split at adds
    · rename_i top
      rw [top.2]
      exact same.extends.targets .story _ story
    · exact absurd rfl adds

/-- An event that waits is handled, and waits no longer. -/
theorem sum_eraseIdx {α : Type} (weigh : α → Int) {events : List α} {k : Nat} {event : α}
    (picked : events[k]? = some event) :
    ((events.eraseIdx k).map weigh).sum = (events.map weigh).sum - weigh event := by
  induction events generalizing k with
  | nil => cases picked
  | cons first rest ih =>
    cases k with
    | zero =>
      obtain rfl := Option.some.inj picked
      simp
    | succ k =>
      have later := ih (by simpa using picked)
      simp only [List.eraseIdx_cons_succ, List.map_cons, List.sum_cons, later]
      omega

theorem Balanced.deliver (balanced : Balanced system memory) (k : Nat)
    (positive : ∀ event ∈ system.pending[k]?, ∀ counter ∈ event.lowers,
      0 < system.tables.value counter) (remembers : memory[i]? = some notes) :
    Balanced (system.deliver k) (memory.set i notes) := by
  simp only [System.deliver]
  cases picked : system.pending[k]? with
  | none =>
    rw [Pool.set_of_some remembers]
    exact balanced
  | some event =>
    have member : event ∈ system.pending := List.mem_of_getElem? picked
    have grounded := balanced.pending event member
    have same : system.tables.SameThreads (event.handle system.tables) :=
      SocialTables.sameThreads_handle event
    refine balanced.move remembers same.extends (fun counter => ?_) (fun other left => ?_)
      ((balanced.memory notes (List.mem_of_getElem? remembers)).extend same.extends)
      (balanced.referential.handle event)
    · dsimp only
      rw [value_handle grounded (positive event picked), sum_eraseIdx _ picked]
      have counted : (event.handle system.tables).counted counter =
          system.tables.counted counter := by
        rcases event.handle_cases system.tables with ⟨same, -⟩ | ⟨raised, same, -⟩ |
          ⟨lowered, -, same, -⟩
        · rw [same]
        · rw [same]
          exact SocialTables.counted_write _ _ _ _
        · rw [same]
          exact SocialTables.counted_write _ _ _ _
      rw [counted]
      omega
    · have known := balanced.pending other (List.mem_of_mem_eraseIdx left)
      exact fun counter adds => same.extends.carries (known counter adds)

/-- An operation that reads changes no book. -/
theorem Balanced.read (balanced : Balanced system memory) (remembers : memory[i]? = some notes)
    (clear : notes.Clear) (clear' : notes'.Clear) (grounded : notes'.Grounded system.tables)
    (now : Int) : Balanced { system with now } (memory.set i notes') := by
  have unmoved : system.tables.SameThreads system.tables := ⟨fun _ => rfl, fun _ => rfl⟩
  refine balanced.write remembers unmoved.extends (fun counter => ?_) grounded
    balanced.referential
  rw [Notes.adds_of_clear clear, Notes.adds_of_clear clear']

theorem Balanced.createComment (balanced : Balanced system memory)
    (remembers : memory[i]? = some notes) (clear : notes.Clear) {storyId : Nat}
    {authorId : String} {parentId : Optional Nat}
    (story : system.tables.hasTarget .story storyId)
    (parent : ∀ id ∈ parentId.orNull, system.tables.hasTarget .comment id) (now : Int) :
    let tables := system.tables.insertComment storyId authorId parentId.orNull
    let comment :=
      SocialTables.newComment storyId authorId parentId.orNull system.tables.comments.next
    Balanced { system with now, tables } (memory.set i
      (notes.next (.createComment storyId authorId parentId) (.ok comment))) := by
  intro tables comment
  have extends_ : system.tables.Extends tables :=
    SocialTables.extends_insertComment storyId authorId parentId.orNull
  have owed : notes.next (.createComment storyId authorId parentId) (.ok comment) =
      Notes.next .free (.createComment storyId authorId parentId) (.ok comment) := by
    cases parentId <;> rfl
  have event : (Event.commentCreated comment.id storyId authorId parentId).Grounded tables := by
    intro counter adds
    simp only [Event.adds] at adds
    split at adds
    · rename_i top
      rw [top.2]
      exact extends_.targets .story _ story
    · exact absurd rfl adds
  rw [owed]
  refine balanced.write remembers extends_ (fun counter => ?_) ?_
    (balanced.referential.insertComment authorId story parent)
  · have owes : (Notes.next .free (.createComment storyId authorId parentId)
        (.ok comment)).adds counter = _ := adds_created comment parentId rfl rfl counter
    have more := SocialTables.counted_insertComment system.tables storyId authorId
      parentId.orNull counter
    rw [SocialTables.value_insertComment, Notes.adds_of_clear clear, owes, more]
    split <;> simp_all [comment]
  · cases parentId with
    | value parentId => exact ⟨extends_.targets .comment _ (parent parentId rfl), event⟩
    | _ => exact event

theorem Balanced.insertReaction (balanced : Balanced system memory)
    (remembers : memory[i]? = some notes) (clear : notes.Clear) {kind : Kind} {targetId : Nat}
    (target : system.tables.hasTarget kind targetId) (userId type : String)
    (createdAt now : Int) :
    Balanced { system with
      now, tables := system.tables.insertReaction kind userId targetId type createdAt }
      (memory.set i (.owes (.reacted kind userId targetId type))) := by
  have same : system.tables.SameThreads
      (system.tables.insertReaction kind userId targetId type createdAt) :=
    SocialTables.sameThreads_setReactions kind _
  refine balanced.write remembers same.extends (fun counter => ?_) (fun counter adds => ?_)
    (balanced.referential.insertReaction target userId type createdAt)
  · have value : (system.tables.insertReaction kind userId targetId type createdAt).value counter =
        system.tables.value counter := SocialTables.value_setReactions _ _ _ _
    rw [Notes.adds_of_clear clear, SocialTables.counted_insertReaction, value]
    simp only [Notes.adds, Event.adds]
    split <;> simp
  · simp only [Event.adds] at adds
    split at adds
    · rename_i liked
      rw [liked]
      exact same.extends.targets kind _ target
    · exact absurd rfl adds

theorem Balanced.deleteReactions (balanced : Balanced system memory)
    (remembers : memory[i]? = some notes) (clear : notes.Clear) {kind : Kind} {userId : String}
    {targetId : Nat} (once : system.tables.rowsOf kind userId targetId = 1) (now : Int) :
    Balanced { system with now, tables := system.tables.deleteReactions kind userId targetId }
      (memory.set i (.owes (.reactionRemoved kind userId targetId))) := by
  have same : system.tables.SameThreads
      (system.tables.deleteReactions kind userId targetId) :=
    SocialTables.sameThreads_setReactions kind _
  refine balanced.write remembers same.extends (fun counter => ?_) (fun counter adds => ?_)
    (balanced.referential.deleteReactions kind userId targetId)
  · have value : (system.tables.deleteReactions kind userId targetId).value counter =
        system.tables.value counter := SocialTables.value_setReactions _ _ _ _
    have gone := SocialTables.counted_deleteReactions system.tables kind userId targetId counter
    rw [once] at gone
    rw [Notes.adds_of_clear clear, value]
    simp only [Notes.adds, Event.adds]
    split at gone <;> simp_all
    omega
  · simp only [Event.adds] at adds
    split at adds
    · rename_i liked
      rw [liked]
      -- the row that was deleted had its target
      have some_ : 0 < system.tables.rowsOf kind userId targetId := by omega
      obtain ⟨row, member, pair⟩ := (Table.count_pos_iff _).mp some_
      have target := balanced.referential.reactions kind row member
      simp only [SocialTables.ofPair, decide_eq_true_eq] at pair
      rw [pair.2] at target
      exact same.extends.targets kind _ target
    · exact absurd rfl adds

theorem Balanced.raise (balanced : Balanced system memory) {parentId : Nat} {event : Event}
    (remembers : memory[i]? = some (.raises parentId event)) (now : Int) :
    Balanced { system with now, tables := system.tables.incrementReplyCount parentId }
      (memory.set i (.owes event)) := by
  obtain ⟨there, grounded⟩ := balanced.memory _ (List.mem_of_getElem? remembers)
  have same : system.tables.SameThreads (system.tables.incrementReplyCount parentId) :=
    SocialTables.sameThreads_write (· + 1) (.replies parentId)
  refine balanced.write remembers same.extends (fun counter => ?_)
    (fun counter adds => same.extends.carries (grounded counter adds))
    (balanced.referential.write (· + 1) (.replies parentId))
  have raised : system.tables.carries (.replies parentId) := there
  have more : (system.tables.incrementReplyCount parentId).value counter = _ :=
    SocialTables.value_increment raised counter
  have counted : (system.tables.incrementReplyCount parentId).counted counter = _ :=
    SocialTables.counted_write _ _ _ _
  rw [more, counted]
  simp only [Notes.adds]
  split <;> simp_all
  omega

theorem Balanced.lower (balanced : Balanced system memory) {id parentId : Nat} {comment : Comment}
    (remembers : memory[i]? = some (.found id comment)) (parent : comment.parentId = some parentId)
    (positive : 0 < system.tables.value (.replies parentId)) (now : Int) :
    Balanced { system with now, tables := system.tables.decrementReplyCount parentId }
      (memory.set i (.lowered id comment)) := by
  have grounded := balanced.memory _ (List.mem_of_getElem? remembers)
  have same : system.tables.SameThreads (system.tables.decrementReplyCount parentId) :=
    SocialTables.sameThreads_write (· - 1) (.replies parentId)
  have there : (Notes.lowered id comment).Grounded system.tables := grounded
  refine balanced.write remembers same.extends (fun counter => ?_) (there.extend same.extends)
    (balanced.referential.write (· - 1) (.replies parentId))
  have less : (system.tables.decrementReplyCount parentId).value counter + _ = _ :=
    SocialTables.value_decrement positive counter
  have counted : (system.tables.decrementReplyCount parentId).counted counter = _ :=
    SocialTables.counted_write _ _ _ _
  rw [counted]
  simp only [Notes.adds, parent, Option.map_some, Option.some.injEq]
  split at less <;> simp_all [eq_comm]

theorem Balanced.announce (balanced : Balanced system memory) {event : Event}
    (remembers : memory[i]? = some (.owes event)) (valid : event.isValid = true) :
    Balanced (system.emit event) (memory.set i .free) := by
  have grounded := balanced.memory _ (List.mem_of_getElem? remembers)
  have unmoved : system.tables.SameThreads system.tables := ⟨fun _ => rfl, fun _ => rfl⟩
  rw [System.emit, if_pos valid]
  refine balanced.move remembers unmoved.extends (fun counter => ?_) (fun other member => ?_)
    trivial balanced.referential
  · simp only [List.map_append, List.sum_append, List.map_cons, List.map_nil, List.sum_cons,
      List.sum_nil, Notes.adds]
    omega
  · rcases List.mem_append.mp member with old | new
    · exact balanced.pending other old
    · rw [List.mem_singleton.mp new]
      exact grounded

end Steps
theorem balanced_preserved : Pool.Preserves exec Notes.protocol
    (fun choice system _ op => Steady choice system op) Balanced := by
  intro choice system memory i notes op remembers balanced allowed steady
  have known := balanced.memory notes (List.mem_of_getElem? remembers)
  cases op with
  | findComment id =>
    simp only [exec, System.perform, Notes.protocol]
    cases found : system.tables.findComment id with
    | none =>
      exact balanced.read remembers allowed .free trivial _
    | some comment =>
      exact balanced.read remembers allowed (.found id comment) ⟨comment, found, rfl⟩ _
  | createComment storyId authorId parentId =>
    simp only [exec, System.perform, System.written]
    cases written : system.tables.createComment storyId authorId parentId.orNull with
    | error e =>
      exact balanced.read remembers allowed .free trivial _
    | ok result =>
      obtain ⟨comment, after⟩ := result
      obtain ⟨story, parent, rfl, rfl⟩ := SocialTables.createComment_eq_ok written
      exact balanced.createComment remembers allowed story parent _
  | softDelete id =>
    rcases allowed with ⟨comment, rfl, top⟩ | ⟨comment, rfl⟩
    · refine balanced.softDelete remembers known (fun counter => ?_) steady _
      simp [Notes.adds, top]
    · exact balanced.softDelete remembers known (fun _ => rfl) steady _
  | incrementReplyCount parentId =>
    obtain ⟨event, rfl⟩ := allowed
    exact balanced.raise remembers _
  | decrementReplyCount parentId =>
    obtain ⟨id, comment, rfl, parent⟩ := allowed
    exact balanced.lower remembers parent steady _
  | findReaction kind userId targetId =>
    exact balanced.read remembers allowed allowed known _
  | createReaction kind userId targetId type =>
    simp only [exec, System.perform, System.written]
    cases written : system.tables.createReaction kind userId targetId type
        (system.now + choice.elapsed) with
    | error e =>
      exact balanced.read remembers allowed .free trivial _
    | ok result =>
      obtain ⟨target, after⟩ := SocialTables.createReaction_eq_ok _ _ written
      obtain ⟨reaction, after'⟩ := result
      obtain rfl := after
      exact balanced.insertReaction remembers allowed target userId type _ _
  | updateReaction kind id type =>
    have same : system.tables.SameThreads (system.tables.updateReaction kind id type) :=
      SocialTables.sameThreads_setReactions kind _
    refine balanced.write remembers same.extends (fun counter => ?_) (known.extend same.extends)
      (balanced.referential.updateReaction kind id type)
    have value : (system.tables.updateReaction kind id type).value counter =
        system.tables.value counter := SocialTables.value_setReactions _ _ _ _
    rw [value, SocialTables.counted_updateReaction]
    rfl
  | deleteReactions kind userId targetId =>
    exact balanced.deleteReactions remembers allowed steady _
  | emit event =>
    obtain rfl := allowed
    have later : Balanced { system with now := system.now + choice.elapsed } memory :=
      ⟨balanced.balance, balanced.pending, balanced.memory, balanced.referential⟩
    exact later.announce remembers steady
  | runHandler =>
    have later : Balanced { system with now := system.now + choice.elapsed } memory :=
      ⟨balanced.balance, balanced.pending, balanced.memory, balanced.referential⟩
    exact later.deliver choice.event steady remembers

theorem balanced_opening (stories : Nat) : Balanced (.opening stories) [] := by
  have untouched : ∀ counter, (SocialTables.opening stories).value counter = 0 := by
    have fresh : ∀ (n : Nat) (story : Story), story ∈ (SocialTables.opening n).stories.rows →
        story.likeCount = 0 ∧ story.commentCount = 0 := by
      intro n
      induction n with
      | zero => intro story member; cases member
      | succ n ih =>
        intro story member
        simp only [SocialTables.opening, List.range_succ, List.foldl_append, List.foldl_cons,
          List.foldl_nil, Table.insert_rows] at member
        rcases List.mem_append.mp member with old | new
        · exact ih story old
        · rw [List.mem_singleton.mp new]
          exact ⟨rfl, rfl⟩
    intro counter
    rcases counter with id | id | ⟨_ | _, id⟩ <;> simp only [SocialTables.value]
    · cases found : (SocialTables.opening stories).stories.find? id with
      | none => rfl
      | some story => exact (fresh stories story (Table.mem_of_find? found)).2
    · rfl
    · cases found : (SocialTables.opening stories).stories.find? id with
      | none => rfl
      | some story => exact (fresh stories story (Table.mem_of_find? found)).1
    · rfl
  refine ⟨fun counter => ?_, ?_, ?_, SocialTables.referential_opening stories⟩
  rotate_left
  · rintro event ⟨⟩
  · rintro notes ⟨⟩
  change ((SocialTables.opening stories).value counter : Int) + 0 + 0 = _
  rw [untouched]
  rcases counter with id | id | ⟨_ | _, id⟩ <;> rfl

theorem Balanced.begun {system : System} (balanced : Balanced system []) (tasks : List Task) :
    Balanced system (begun tasks) := by
  refine ⟨fun counter => ?_, balanced.pending, fun notes member => ?_, balanced.referential⟩
  · have books := balanced.balance counter
    rw [sum_of_clear (by simp [Social.begun, Notes.adds])]
    simpa using books
  · obtain ⟨task, -, rfl⟩ := List.mem_map.mp member
    trivial

/-- Where every write does what it stands for, the counters are right once all operations and
all handlers are through, whatever the order they took. -/
theorem counters_settle {system : System} (opening : Balanced system []) (tasks : List Task)
    {schedule : List (Nat × Choice)}
    (steady : Pool.EachCall exec Steady schedule (pool system tasks)) :
    let after := (pool system tasks).run exec schedule
    after.Finished → after.state.pending = [] → after.state.tables.Accurate := by
  intro after finished handled
  have kept := (Pool.run_invariant balanced_preserved (opening.begun tasks)
    (pool_follows system tasks) (Pool.meets_of_eachCall exec Notes.protocol steady _)).1
  have clear := Pool.post_of_finished
    (Pool.run_reaches (pool_reaches system tasks) schedule) finished
  refine SocialTables.accurate_of_value fun counter => ?_
  have books := kept.balance counter
  rw [sum_of_clear fun notes member => Notes.adds_of_clear (clear notes member) counter] at books
  change _ + (after.state.pending.map (Event.adds counter)).sum + 0 = _ at books
  rw [handled] at books
  exact_mod_cast (by simpa using books)

/-- The turns of some threads; a handler takes the event with this place in the queue. -/
def picks (order : List (Nat × Nat)) : List (Nat × Choice) :=
  order.map fun (thread, event) => (thread, { event })

def comments (parentId : Optional Nat) : Task := .createComment ⟨0, "reader", parentId⟩

def deletes (id : Nat) : Task := .deleteComment id "reader"

theorem counters_settle_thread :
    ((pool (.opening 1) [comments .undefined, comments (.value 0), deletes 1, .eventHandler,
      .eventHandler, .eventHandler]).run exec (picks [(0, 0), (0, 0), (1, 0), (1, 0), (1, 0),
        (1, 0), (2, 0), (2, 0), (2, 0), (2, 0), (3, 2), (4, 0), (5, 0)])).state.tables.Accurate := by
  refine counters_settle (balanced_opening 1) [comments .undefined, comments (.value 0),
    deletes 1, .eventHandler, .eventHandler, .eventHandler] ?_ ?_ ?_ <;> decide

/-- A comment whose body says `parentId: null` is never counted; a comment deleted twice at once
is taken off twice; a removal handled before its reaction leaves a like behind. -/
theorem counters_drift :
    (let after := (pool (.opening 1) [comments .null]).run exec (picks [(0, 0), (0, 0)])
    after.Finished ∧ after.state.pending = [] ∧ ¬ after.state.tables.Accurate) ∧
    (let after := (pool (.opening 1) [comments .undefined, comments .undefined, deletes 0,
      deletes 0, .eventHandler, .eventHandler, .eventHandler, .eventHandler]).run exec
        (picks [(0, 0), (0, 0), (4, 0), (1, 0), (1, 0), (5, 0), (2, 0), (3, 0), (2, 0), (3, 0),
          (2, 0), (6, 0), (3, 0), (7, 0)])
    after.Finished ∧ after.state.pending = [] ∧ ¬ after.state.tables.Accurate) ∧
    (let after := (pool (.opening 1) [.addReaction .story "reader" 0 "like",
      .removeReaction .story "reader" 0, .eventHandler, .eventHandler]).run exec
        (picks [(0, 0), (0, 0), (0, 0), (1, 0), (1, 0), (1, 0), (2, 1), (3, 0)])
    after.Finished ∧ after.state.pending = [] ∧ ¬ after.state.tables.Accurate) := by
  decide

end Social
