import Hakawi.Effects.Trace
import Hakawi.Social.Counters
import Hakawi.Social.Pairs

/-!
# The counters recounted

The migration counts the rows again. Where operations come one after the other,
each with its handler, the counters say what the handlers mean by them, and the
recount can only differ in what it means: to the handlers a story's comments are
those at the top, to the migration they are all that have not been deleted.
-/

namespace Social

open Common Store Effects

namespace SocialTables
variable (tables : SocialTables)

/-- `SET counter = total FROM (… GROUP BY …)`: a row for which there is nothing to count is in
no group, and is left as it is. -/
def regrouped (total counter : Nat) : Nat := if total = 0 then counter else total

def recountStoryLikes : SocialTables :=
  { tables with
    stories := tables.stories.map (fun s => { s with
      likeCount := regrouped (tables.storyReactions.count (·.targetId = s.id)) s.likeCount })
      fun _ => rfl }

def recountStoryComments : SocialTables :=
  { tables with
    stories := tables.stories.map (fun s => { s with
      commentCount := regrouped
        (tables.comments.count fun c => ¬ c.isDeleted ∧ c.storyId = s.id) s.commentCount })
      fun _ => rfl }

def recountCommentLikes : SocialTables :=
  { tables with
    comments := tables.comments.map (fun c => { c with
      likeCount := if c.isDeleted then c.likeCount else
        regrouped (tables.commentReactions.count (·.targetId = c.id)) c.likeCount })
      fun _ => rfl }

def liveChildren (id : Nat) : Nat :=
  tables.comments.count fun child => child.parentId = some id ∧ ¬ child.isDeleted

def recountReplies : SocialTables :=
  { tables with
    comments := tables.comments.map (fun c => { c with
      replyCount := regrouped (tables.liveChildren c.id) c.replyCount }) fun _ => rfl }

/-- `WHERE NOT EXISTS` a live child. -/
def zeroReplies : SocialTables :=
  { tables with
    comments := tables.comments.map (fun c => { c with
      replyCount := if tables.liveChildren c.id = 0 then 0 else c.replyCount }) fun _ => rfl }

/-- The statements of `0019_backfill_denormalised_counters`, in their order; those for counters
that are null find no row, the columns do not admit it. -/
def backfillDenormalisedCounters : SocialTables :=
  tables.recountStoryLikes.recountStoryComments.recountCommentLikes.recountReplies.zeroReplies

end SocialTables

namespace System

/-- The handlers of what is pending run, in the order of the announcements. -/
def settle (system : System) : System := system.pending.foldl (fun s _ => s.deliver 0) system

/-- One operation, and the handlers of what it announced. -/
def step (system : System) (operation : Task × (Nat → Choice)) : System :=
  (operation.1.handler.run.eval exec operation.2 system).2.settle

end System

/-- No counter of a story or of a comment that is not deleted differs. -/
structure SocialTables.SameCounters (before after : SocialTables) : Prop where
  stories : ∀ id story, before.stories.find? id = some story → ∃ later,
    after.stories.find? id = some later ∧ later.likeCount = story.likeCount ∧
      later.commentCount = story.commentCount
  comments : ∀ id comment, before.findComment id = some comment → comment.isDeleted = false →
    ∃ later, after.findComment id = some later ∧ later.likeCount = comment.likeCount ∧
      later.replyCount = comment.replyCount

/-- The body of the request does not say `parentId: null`. -/
def Task.omitsNull : Task → Bool
  | .createComment input => input.parentId ≠ .null
  | _ => true

/-- A call keeps to the books and comes at its time. -/
def Timely (choice : Choice) (system : System) (op : Call) : Prop :=
  Steady choice system op ∧ ∀ kind, Unraced kind choice system op

/-- The books between operations: nothing is pending, and nothing is there twice. -/
structure Settled (system : System) : Prop where
  balanced : Balanced system []
  paired : ∀ kind, Paired kind system []
  handled : system.pending = []

/-- What an operation leaves to its handlers is one announcement. -/
def Announced (system : System) : Prop := ∃ last : Option Event, system.pending = last.toList

section Rules
variable {α β : Type} {Q : Except Failure β → System → Prop} {system : System}

theorem wpE_timely {op : Call} {next : op.Answer → Handler β}
    (timely : ∀ choice, Timely choice system op)
    (goes : ∀ choice, wpE (Pool.guarded exec Timely) (next (exec choice system op).1) Q
      (exec choice system op).2) :
    wpE (Pool.guarded exec Timely) (call op >>= next) Q system := by
  simp only [wpE_bind, call, wpE_mk_call, Program.wp_done]
  exact fun choice => ⟨timely choice, goes choice⟩

theorem wpE_timely_last {op : Call} {Q : Except Failure op.Answer → System → Prop}
    (timely : ∀ choice, Timely choice system op)
    (goes : ∀ choice, Q (.ok (exec choice system op).1) (exec choice system op).2) :
    wpE (Pool.guarded exec Timely) (call op) Q system := by
  simp only [call, wpE_mk_call, Program.wp_done]
  exact fun choice => ⟨timely choice, goes choice⟩

theorem Announced.nothing (handled : system.pending = []) : Announced system := ⟨none, handled⟩

theorem announced_emit (handled : system.pending = []) {event : Event}
    (valid : event.isValid = true) : Announced (system.emit event) := by
  refine ⟨some event, ?_⟩
  simp [System.emit, valid, handled]

/-- The announcement ends the operation. -/
theorem wpE_emit (handled : system.pending = []) {event : Event} (valid : event.isValid = true) :
    wpE (Pool.guarded exec Timely) (call (.emit event)) (fun _ after => Announced after)
      system :=
  wpE_timely_last (fun _ => ⟨valid, fun _ => trivial⟩) fun choice =>
    have later : { system with now := system.now + choice.elapsed }.pending = [] := handled
    announced_emit later valid

end Rules

section Operations
variable {system : System}

theorem validateParent_timely (handled : system.pending = []) (input : CreateCommentInput) :
    wpE (Pool.guarded exec Timely) (validateParent input)
      (fun _ after => after.pending = []) system := by
  rw [validateParent]
  cases input.parentId with
  | value parent =>
    refine wpE_timely (fun _ => ⟨trivial, fun _ => trivial⟩) fun _ => ?_
    rw [wpE_liftM]
    exact handled
  | _ => exact handled

theorem raise_timely (handled : system.pending = []) (parentId : Optional Nat) {event : Event}
    (valid : event.isValid = true) :
    wpE (Pool.guarded exec Timely) (do raiseReplyCount parentId; call (.emit event))
      (fun _ after => Announced after) system := by
  cases parentId with
  | value parent =>
    refine wpE_timely (fun _ => ⟨trivial, fun _ => trivial⟩) fun _ => wpE_emit ?_ valid
    exact handled
  | undefined => exact wpE_emit handled valid
  | null => exact wpE_emit handled valid

theorem create_timely (handled : system.pending = []) {input : CreateCommentInput}
    (omits : input.parentId ≠ .null) :
    wpE (Pool.guarded exec Timely) (CommentsService.create input)
      (fun _ after => Announced after) system := by
  rw [CommentsService.create, wpE_bind]
  refine wpE_mono (Pool.guarded_monotone _) (fun result system handled => ?_)
    (validateParent_timely handled input)
  cases result with
  | error e => exact .nothing handled
  | ok _ =>
    refine wpE_timely (fun _ => ⟨trivial, fun _ => trivial⟩) fun choice => ?_
    simp only [exec, System.perform, System.written]
    cases system.tables.createComment input.storyId input.authorId input.parentId.orNull with
    | error e => exact wpE_liftM_bind _ (fun _ _ => .nothing handled) fun _ ok => by cases ok
    | ok written =>
      refine wpE_liftM_bind _ (fun _ failed => by cases failed) fun comment _ => ?_
      refine raise_timely ?_ input.parentId ?_
      · exact handled
      · simp [Event.isValid, omits]

theorem live_eq_ok {found : Option Comment} {comment : Comment}
    (ok : CommentsService.live found = .ok comment) :
    found = some comment ∧ comment.isDeleted = false := by
  simp only [CommentsService.live] at ok
  split at ok
  · cases ok
  split at ok
  · cases ok
  rename_i present
  obtain rfl := Except.ok.inj ok
  exact ⟨rfl, by simpa using present⟩

/-- A write of a counter deletes nothing. -/
theorem live_write {tables : SocialTables} {id : Nat} {comment : Comment}
    (found : tables.findComment id = some comment) (live : comment.isDeleted = false)
    (change : Nat → Nat) (counter : Counter) :
    ∃ row ∈ (tables.write change counter).findComment id, row.isDeleted = false := by
  rcases counter with k | k | ⟨_ | _, k⟩ <;>
    simp only [SocialTables.write, SocialTables.findComment, Table.find?_modify] at found ⊢ <;>
    simp only [found] <;> try split
  all_goals exact ⟨_, rfl, live⟩

theorem Settled.value (settled : Settled system) (counter : Counter) :
    system.tables.value counter = system.tables.counted counter := by
  have books := settled.balanced.balance counter
  rw [settled.handled] at books
  exact_mod_cast (by simpa using books)

/-- A reply that can be read has been counted. -/
theorem Settled.replies_pos (settled : Settled system) {id parentId : Nat} {comment : Comment}
    (found : system.tables.findComment id = some comment) (live : comment.isDeleted = false)
    (parent : comment.parentId = some parentId) :
    0 < system.tables.value (.replies parentId) := by
  rw [settled.value]
  refine (Table.count_pos_iff _).mpr ⟨comment, Table.mem_of_find? found, ?_⟩
  simp [Comment.counts, parent, live]

theorem delete_timely (settled : Settled system) (id : Nat) (authorId : String) :
    wpE (Pool.guarded exec Timely) (CommentsService.delete id authorId)
      (fun _ after => Announced after) system := by
  have handled := settled.handled
  refine wpE_timely (fun _ => ⟨trivial, fun _ => trivial⟩) fun _ => ?_
  refine wpE_liftM_bind _ (fun _ _ => .nothing handled) fun comment ok => ?_
  obtain ⟨found, live⟩ := live_eq_ok ok
  refine wpE_liftM_bind _ (fun _ _ => .nothing handled) fun _ _ => ?_
  cases parent : comment.parentId with
  | none =>
    refine wpE_timely (fun _ => ⟨⟨comment, found, live⟩, fun _ => trivial⟩) fun _ => ?_
    refine wpE_emit ?_ rfl
    exact handled
  | some parentId =>
    have positive := settled.replies_pos found live parent
    refine wpE_timely (fun _ => ⟨positive, fun _ => trivial⟩) fun _ => ?_
    refine wpE_timely (fun _ => ⟨live_write found live _ _, fun _ => trivial⟩) fun _ => ?_
    refine wpE_emit ?_ rfl
    exact handled

theorem Settled.later (settled : Settled system) (now : Int) : Settled { system with now } :=
  ⟨⟨settled.balanced.balance, settled.balanced.pending, settled.balanced.memory,
    settled.balanced.referential⟩,
    fun kind => ⟨(settled.paired kind).single, (settled.paired kind).balance⟩, settled.handled⟩

theorem contentRemoved_timely (settled : Settled system) (targetId : Nat) :
    wpE (Pool.guarded exec Timely) (handleModerationContentRemoved targetId)
      (fun _ after => Announced after) system := by
  refine wpE_timely (fun _ => ⟨trivial, fun _ => trivial⟩) fun choice => ?_
  simp only [exec, System.perform]
  cases system.tables.findComment targetId with
  | none => exact .nothing settled.handled
  | some comment =>
    simp only [wpE_ite]
    split
    · exact .nothing settled.handled
    · rw [wpE_tryCatch]
      refine wpE_mono (Pool.guarded_monotone _) (fun result after announced => ?_)
        (delete_timely (settled.later _) comment.id comment.authorId)
      cases result with
      | error e => exact announced
      | ok _ => exact announced

theorem react_timely (handled : system.pending = []) (kind : Kind) (userId : String)
    (targetId : Nat) (type : String) :
    wpE (Pool.guarded exec Timely) (react kind userId targetId type)
      (fun _ after => Announced after) system := by
  refine wpE_timely (fun _ => ⟨trivial, fun _ => trivial⟩) fun choice => ?_
  simp only [exec, System.perform]
  cases found : system.tables.findReaction kind userId targetId with
  | some existing =>
    exact wpE_timely_last (fun _ => ⟨trivial, fun _ => trivial⟩) fun _ => .nothing handled
  | none =>
    have first := SocialTables.findReaction_eq_none.mp found
    refine wpE_timely (fun _ => ⟨trivial, fun _ _ _ => first⟩) fun _ => ?_
    simp only [exec, System.perform, System.written]
    split
    · exact wpE_liftM_bind _ (fun _ _ => .nothing handled) fun _ ok => by cases ok
    · refine wpE_liftM_bind _ (fun _ failed => by cases failed) fun _ _ => ?_
      refine wpE_emit ?_ rfl
      exact handled

theorem unreact_timely (settled : Settled system) (kind : Kind) (userId : String)
    (targetId : Nat) :
    wpE (Pool.guarded exec Timely) (unreact kind userId targetId)
      (fun _ after => Announced after) system := by
  refine wpE_timely (fun _ => ⟨trivial, fun _ => trivial⟩) fun choice => ?_
  simp only [exec, System.perform]
  cases found : system.tables.findReaction kind userId targetId with
  | none => exact .nothing settled.handled
  | some existing =>
    have single := (settled.paired kind).single userId targetId
    have some_ : system.tables.rowsOf kind userId targetId ≠ 0 := fun zero => by
      rw [SocialTables.findReaction_eq_none.mpr zero] at found
      cases found
    have once : system.tables.rowsOf kind userId targetId = 1 := by omega
    refine wpE_timely (fun _ => ⟨once, fun _ _ => some_⟩) fun _ => ?_
    refine wpE_emit ?_ rfl
    exact settled.handled

theorem lookedUp_timely (settled : Settled system) (commentId : Nat) {rest : Handler Unit}
    (goes : ∀ later, Settled later → wpE (Pool.guarded exec Timely) rest
      (fun _ after => Announced after) later) :
    wpE (Pool.guarded exec Timely) (do
      let _ ← CommentsService.live (← call (.findComment commentId))
      rest) (fun _ after => Announced after) system := by
  refine wpE_timely (fun _ => ⟨trivial, fun _ => trivial⟩) fun choice => ?_
  refine wpE_liftM_bind _ (fun _ _ => .nothing settled.handled) fun _ _ => ?_
  exact goes _ (settled.later _)

/-- An operation that comes alone makes every call in its time, and announces one thing at most. -/
theorem handler_timely (settled : Settled system) {task : Task} (omits : task.omitsNull) :
    wpE (Pool.guarded exec Timely) task.handler (fun _ after => Announced after) system := by
  have handled := settled.handled
  cases task with
  | createComment input => exact create_timely handled (by simpa [Task.omitsNull] using omits)
  | deleteComment id authorId => exact delete_timely settled id authorId
  | contentRemoved commentId => exact contentRemoved_timely settled commentId
  | addReaction kind userId targetId type =>
    cases kind with
    | story =>
      refine wpE_liftM_bind _ (fun _ _ => .nothing handled) fun _ _ => ?_
      exact react_timely handled .story userId targetId type
    | comment =>
      refine wpE_liftM_bind _ (fun _ _ => .nothing handled) fun _ _ => ?_
      exact lookedUp_timely settled targetId fun _ later =>
        react_timely later.handled .comment userId targetId type
  | removeReaction kind userId targetId =>
    cases kind with
    | story => exact unreact_timely settled .story userId targetId
    | comment =>
      exact lookedUp_timely settled targetId fun _ later =>
        unreact_timely later .comment userId targetId
  | eventHandler =>
    refine wpE_timely_last (fun _ => ⟨?_, fun _ => trivial⟩) fun _ => ?_
    · simp [Steady, handled]
    · exact .nothing (by simp [exec, System.perform, System.deliver, handled])

/-- What all operations keep: the books balance and no pair is there twice. -/
def Kept (system : System) (memory : List Notes) : Prop :=
  Balanced system memory ∧ ∀ kind, Paired kind system memory

theorem kept_preserved : Pool.Preserves exec Notes.protocol
    (fun choice system _ op => Timely choice system op) Kept := by
  intro choice system memory i notes op remembers kept allowed timely
  refine ⟨?_, fun kind => ?_⟩
  · exact balanced_preserved _ _ _ _ _ _ remembers kept.1 allowed timely.1
  · exact paired_preserved kind _ _ _ _ _ _ remembers (kept.2 kind) allowed (timely.2 kind)

theorem Kept.clear {notes : Notes} (kept : Kept system [notes]) (clear : notes.Clear) :
    Kept system [] := by
  refine ⟨⟨fun counter => ?_, kept.1.pending, fun _ member => (by cases member),
    kept.1.referential⟩, fun kind => ⟨(kept.2 kind).single, fun userId targetId => ?_⟩⟩
  · have books := kept.1.balance counter
    simpa [Notes.adds_of_clear clear] using books
  · have books := (kept.2 kind).balance userId targetId
    simpa [Notes.moves_of_clear clear] using books

theorem adds_of_lowers {event : Event} {counter : Counter} (lowers : counter ∈ event.lowers) :
    event.adds counter = -1 := by
  cases event with
  | reactionRemoved kind userId targetId =>
    obtain rfl := Option.some.inj lowers
    simp [Event.adds]
  | commentDeleted id storyId parentId =>
    cases parentId with
    | none =>
      obtain rfl := Option.some.inj lowers
      simp [Event.adds]
    | some parent => cases lowers
  | _ => cases lowers

/-- A single pending event that lowers a counter finds it above zero: there is a row less than
it says. -/
theorem Kept.settle (kept : Kept system []) (announced : Announced system) :
    Settled system.settle := by
  obtain ⟨last, pending⟩ := announced
  cases last with
  | none =>
    have same : system.settle = system := by simp [System.settle, pending]
    rw [same]
    exact ⟨kept.1, kept.2, pending⟩
  | some event =>
    have same : system.settle = system.deliver 0 := by simp [System.settle, pending]
    have positive : ∀ e ∈ system.pending[0]?, ∀ counter ∈ e.lowers,
        0 < system.tables.value counter := by
      intro e first counter lowers
      simp only [pending, Option.toList_some, List.getElem?_cons_zero] at first
      obtain rfl := Option.some.inj first
      have books := kept.1.balance counter
      simp only [pending, Option.toList_some, List.map_cons, List.map_nil, List.sum_cons,
        List.sum_nil, adds_of_lowers lowers] at books
      omega
    have begun : Kept system [.free] :=
      ⟨kept.1.begun [.eventHandler], fun kind => (kept.2 kind).begun [.eventHandler]⟩
    have delivered : Kept (system.deliver 0) [.free] :=
      ⟨begun.1.deliver (i := 0) 0 positive rfl, fun kind => (begun.2 kind).keep (i := 0) rfl
        (rowsOf_of_reactions (reactions_deliver _ _)) (emitted_deliver _ _) fun _ _ => rfl⟩
    have after := delivered.clear .free
    rw [same]
    refine ⟨after.1, after.2, ?_⟩
    simp [System.deliver, pending]

theorem Settled.step (settled : Settled system) {operation : Task × (Nat → Choice)}
    (omits : operation.1.omitsNull) : Settled (system.step operation) := by
  have begun : Kept system [.free] :=
    ⟨settled.balanced.begun [operation.1], fun kind => (settled.paired kind).begun [operation.1]⟩
  obtain ⟨announced, notes, clear, kept⟩ := Pool.eval_invariant kept_preserved begun
    (handler_clears operation.1) (handler_timely settled omits) operation.2
  exact (kept.clear clear).settle announced

theorem settled_opening (stories : Nat) : Settled (.opening stories) := by
  refine ⟨balanced_opening stories, fun kind => ?_, rfl⟩
  cases kind <;> exact ⟨fun _ _ => Nat.zero_le 1, fun _ _ => rfl⟩

theorem settled_run (stories : Nat) {operations : List (Task × (Nat → Choice))}
    (omits : ∀ operation ∈ operations, operation.1.omitsNull) :
    Settled (Trace.run System.step (.opening stories) operations) := by
  have each : Trace.Meets System.step (fun _ operation => operation.1.omitsNull = true)
      (.opening stories) operations :=
    Trace.meets_of_forall_mem fun operation member _ => omits operation member
  exact Trace.run_invariant (fun _ _ settled omits => settled.step omits)
    (settled_opening stories) each

end Operations

namespace SocialTables
variable {tables : SocialTables}

theorem regrouped_self (counter : Nat) : regrouped counter counter = counter := by
  simp only [regrouped, ite_self]

theorem find?_backfill_stories (id : Nat) :
    tables.backfillDenormalisedCounters.stories.find? id =
      (tables.stories.find? id).map fun s => { s with
        likeCount := regrouped (tables.storyReactions.count (·.targetId = s.id)) s.likeCount
        commentCount := regrouped
          (tables.comments.count fun c => ¬ c.isDeleted ∧ c.storyId = s.id) s.commentCount } := by
  simp only [backfillDenormalisedCounters, zeroReplies, recountReplies, recountCommentLikes,
    recountStoryComments, recountStoryLikes, Table.find?_map, Option.map_map]
  rfl

/-- No statement moves a comment to another parent, nor deletes or restores one. -/
theorem liveChildren_map {before after : SocialTables} {f : Comment → Comment}
    (written : after.comments.rows = before.comments.rows.map f)
    (same : ∀ c, (f c).parentId = c.parentId ∧ (f c).isDeleted = c.isDeleted) (id : Nat) :
    after.liveChildren id = before.liveChildren id := by
  rw [liveChildren, Table.count, written, List.countP_map]
  exact List.countP_congr fun c _ => by simp [same]

theorem find?_backfill_comments (id : Nat) :
    tables.backfillDenormalisedCounters.findComment id =
      (tables.findComment id).map fun c => { c with
        likeCount := if c.isDeleted then c.likeCount else
          regrouped (tables.commentReactions.count (·.targetId = c.id)) c.likeCount
        replyCount := tables.liveChildren c.id } := by
  have liked (id : Nat) : liveChildren
      tables.recountStoryLikes.recountStoryComments.recountCommentLikes id =
        tables.liveChildren id := by
    refine liveChildren_map rfl ?_ id
    exact fun c => ⟨rfl, rfl⟩
  have replied (id : Nat) : liveChildren
      tables.recountStoryLikes.recountStoryComments.recountCommentLikes.recountReplies id =
        tables.liveChildren id := by
    rw [← liked]
    refine liveChildren_map rfl ?_ id
    exact fun c => ⟨rfl, rfl⟩
  simp only [backfillDenormalisedCounters, zeroReplies, replied, findComment, Table.find?_map]
  rw [recountReplies]
  simp only [liked, Table.find?_map]
  simp only [recountCommentLikes, recountStoryComments, recountStoryLikes, Table.find?_map,
    Option.map_map]
  congr 1
  funext c
  simp only [Function.comp_apply, regrouped]
  by_cases childless : tables.liveChildren c.id = 0 <;> simp [childless]

/-- The live comments of a story are those its counter stands for and the replies. -/
theorem Accurate.liveComments (accurate : tables.Accurate) {story : Story}
    (member : story ∈ tables.stories.rows) :
    (tables.comments.count fun c => ¬ c.isDeleted ∧ c.storyId = story.id) = story.commentCount +
      tables.comments.count fun c =>
        ¬ c.isDeleted ∧ c.storyId = story.id ∧ c.parentId ≠ none := by
  have split := Table.count_split (fun c : Comment => ¬ c.isDeleted ∧ c.storyId = story.id)
    tables.comments (·.parentId = none)
  rw [split, accurate.commentCounts story member]
  congr 1
  · congr 1
    funext c
    grind
  · congr 1
    funext c
    grind

theorem sameCounters_iff (accurate : tables.Accurate) (referential : tables.Referential) :
    tables.SameCounters tables.backfillDenormalisedCounters ↔
      ∀ comment ∈ tables.comments.rows, comment.isDeleted = false → comment.parentId = none := by
  constructor
  · intro same comment member live
    by_contra reply
    have found : tables.findComment comment.id = some comment :=
      Table.find?_eq_some_iff.mpr ⟨member, rfl⟩
    have target := (referential.comments _ comment found).1
    obtain ⟨story, stored⟩ := Option.isSome_iff_exists.mp target
    obtain ⟨later, written, -, unchanged⟩ := same.stories _ story stored
    rw [find?_backfill_stories, stored] at written
    obtain rfl := Option.some.inj written
    have total := accurate.liveComments (Table.mem_of_find? stored)
    have replies : 0 < tables.comments.count fun c =>
        ¬ c.isDeleted ∧ c.storyId = story.id ∧ c.parentId ≠ none := by
      refine (Table.count_pos_iff _).mpr ⟨comment, member, ?_⟩
      simp [live, reply, Table.key_of_find? stored]
    simp only [regrouped, total] at unchanged
    split at unchanged <;> omega
  · intro top
    refine ⟨fun id story stored => ?_, fun id comment found live => ?_⟩
    · have member := Table.mem_of_find? stored
      refine ⟨_, by rw [find?_backfill_stories, stored]; rfl, ?_, ?_⟩
      · dsimp only
        rw [← accurate.storyLikes story member]
        exact regrouped_self _
      · have none : (tables.comments.count fun c =>
            ¬ c.isDeleted ∧ c.storyId = story.id ∧ c.parentId ≠ none) = 0 := by
          refine (Table.count_eq_zero_iff _).mpr fun c member => ?_
          by_cases live : c.isDeleted
          · simp [live]
          · simp [top c member (by simpa using live)]
        dsimp only
        rw [accurate.liveComments member, none]
        exact regrouped_self _
    · have member := Table.mem_of_find? found
      refine ⟨_, by rw [find?_backfill_comments, found]; rfl, ?_, ?_⟩
      · dsimp only
        rw [live, ← accurate.commentLikes comment member]
        exact regrouped_self _
      · exact (accurate.replyCounts comment member).symm

end SocialTables

/-- After a run whose operations came one at a time, the recount changes a counter if and only
if a reply is left: the handlers do not count it for its story, the migration does. -/
theorem recount_unchanged_iff (stories : Nat) {operations : List (Task × (Nat → Choice))}
    (omits : ∀ operation ∈ operations, operation.1.omitsNull) :
    let after := (Trace.run System.step (.opening stories) operations).tables
    after.SameCounters after.backfillDenormalisedCounters ↔
      ∀ comment ∈ after.comments.rows, comment.isDeleted = false → comment.parentId = none := by
  intro after
  have settled := settled_run stories omits
  exact SocialTables.sameCounters_iff (SocialTables.accurate_of_value settled.value)
    settled.balanced.referential

/-- Operations with a minute before each call. -/
def minutely (tasks : List Task) : List (Task × (Nat → Choice)) :=
  tasks.map fun task => (task, fun _ => { elapsed := 60000 })

theorem recount_unchanged_deleted :
    let after := (Trace.run System.step (.opening 1) (minutely [comments .undefined,
      comments (.value 0), .addReaction .comment "reader" 0 "like", likes, deletes 1])).tables
    after.SameCounters after.backfillDenormalisedCounters :=
  (recount_unchanged_iff 1 (by decide)).mpr (by decide)

/-- A comment and its reply: the handlers have counted one, the migration counts two. -/
theorem recount_counts_replies :
    let after := (Trace.run System.step (.opening 1)
      (minutely [comments .undefined, comments (.value 0)])).tables
    ¬ after.SameCounters after.backfillDenormalisedCounters := by
  intro after same
  have said : after.stories.find? 0 = some ⟨0, 0, 1⟩ := by decide
  have recounted : after.backfillDenormalisedCounters.stories.find? 0 = some ⟨0, 0, 2⟩ := by
    decide
  obtain ⟨later, written, -, unchanged⟩ := same.stories 0 _ said
  rw [recounted] at written
  obtain rfl := Option.some.inj written
  cases unchanged

end Social
