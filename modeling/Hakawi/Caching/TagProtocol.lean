import Hakawi.Caching.TagGeneration
import Hakawi.Effects.Pool

/-!
# The protocol of the tags

What a cached read and a change with its invalidation call, in which order, and what
each has learned so far. The service and the interceptor both follow it; they differ
in when the database is changed.
-/

namespace Caching
open Html Common Effects

/-- One cached read: its key and tags, and what it stores of the database. -/
structure Read (D : Type) where
  key : Units
  tags : List Units
  ttl : Int
  render : D → Json

inductive Phase (D : Type) where
  | start
  /-- These generations are in the snapshot. -/
  | reading (generations : List Text)
  /-- Loaded, and these generations were read once more. -/
  | checking (before : List Text) (value : D) (after : List Text)
  /-- Stored, and the key is in the index of so many tags. -/
  | indexing (indexed : Nat) (listed : Bool)

inductive Memory (D : Type) where
  | reader (read : Read D) (phase : Phase D)
  /-- `todo` are the tags to sweep, after the one under way: its index has been read, and
  these keys are to be deleted, or it has been deleted itself. -/
  | writer (changed : Bool) (todo : List Units) (current : Option (Units × Option (List Units)))
  /-- A call has failed that the others depend on. -/
  | broken

namespace Memory
variable {D : Type}

/-- After a command that was answered. -/
def answered : Memory D → (command : Command Units) → command.Answer → Memory D
  | reader read .start, .get _, _ => reader read (.reading [])
  | reader read (.reading generations), .del _, _ => reader read (.reading generations)
  | reader read (.reading generations), .get _, generation =>
    reader read (.reading (generations ++ [Option.getD generation INITIAL_TAG_GENERATION]))
  | reader read (.checking before value after), .get _, generation =>
    reader read (.checking before value (after ++ [Option.getD generation INITIAL_TAG_GENERATION]))
  | reader read (.checking _ _ _), .set _ _ _, _ => reader read (.indexing 0 false)
  | reader read (.indexing indexed false), .sadd _ _, _ => reader read (.indexing indexed true)
  | reader read (.indexing indexed true), .expire _ _, _ =>
    reader read (.indexing (indexed + 1) false)
  | writer changed todo none, .smembers _, keys => match todo with
    | tag :: rest => writer changed rest (some (tag, some keys))
    | [] => broken
  | writer changed todo (some (tag, some (_ :: keys))), .del _, _ =>
    writer changed todo (some (tag, some keys))
  | writer changed todo (some (tag, some [])), .del _, _ => writer changed todo (some (tag, none))
  | writer changed todo (some (_, none)), .incr _, _ => writer changed todo none
  | _, _, _ => broken

/-- After a call that failed. A read may go without the cache, fail, or store nothing. -/
def failed : Memory D → CacheCall D → Memory D
  | reader read .start, .valkey (.get _) => reader read (.reading [])
  | reader read (.reading generations), .valkey (.del _) => reader read (.reading generations)
  | reader read (.reading generations), .readDatabase => reader read (.reading generations)
  | reader read (.checking before value after), .valkey (.get _) =>
    reader read (.checking before value after)
  | _, _ => broken

def next (g : Memory D) : (call : CacheCall D) → CacheResult call → Memory D
  | .valkey command, .ok answer => g.answered command answer
  | .valkey command, .error _ => g.failed (.valkey command)
  | .readDatabase, .ok value => match g with
    | reader read (.reading generations) => reader read (.checking generations value [])
    | _ => broken
  | .readDatabase, .error _ => g.failed .readDatabase
  | .changeDatabase _, .ok _ => match g with
    | writer _ todo none => writer true todo none
    | _ => broken
  | .changeDatabase change, .error _ => g.failed (.changeDatabase change)

def isBroken : Memory D → Bool
  | broken => true
  | _ => false

theorem next_broken (call : CacheCall D) (result : CacheResult call) :
    (broken : Memory D).next call result = broken := by
  cases call with
  | valkey command =>
    cases result with
    | error e => cases command <;> rfl
    | ok answer => cases command <;> rfl
  | readDatabase => cases result <;> rfl
  | changeDatabase change => cases result <;> rfl

end Memory

section Protocol
variable {D : Type} (mayChange : Bool → List Units → (D → D) → Prop)

/-- What may be called next. When the database may be changed is left open. -/
inductive Allowed : Memory D → CacheCall D → Prop where
  | lookUp (read : Read D) : Allowed (.reader read .start) (.valkey (.get read.key))
  | dropCorrupt (read : Read D) : Allowed (.reader read (.reading [])) (.valkey (.del read.key))
  | snapshot {read : Read D} {generations : List Text} {tag : Units} {rest : List Units}
      (now : read.tags.drop generations.length = tag :: rest) :
      Allowed (.reader read (.reading generations)) (.valkey (.get (tagGenerationKey tag)))
  | load {read : Read D} {generations : List Text}
      (complete : generations.length = read.tags.length) :
      Allowed (.reader read (.reading generations)) .readDatabase
  | compare {read : Read D} {before after : List Text} {value : D} {tag : Units}
      {rest : List Units} (now : read.tags.drop after.length = tag :: rest) :
      Allowed (.reader read (.checking before value after)) (.valkey (.get (tagGenerationKey tag)))
  | store {read : Read D} {before after : List Text} {value : D}
      (complete : after.length = read.tags.length)
      (unchanged : tagGenerationsChanged before after = false) :
      Allowed (.reader read (.checking before value after))
        (.valkey (.set read.key (stringify (read.render value)) (some read.ttl)))
  | list {read : Read D} {indexed : Nat} {tag : Units} {rest : List Units}
      (now : read.tags.drop indexed = tag :: rest) :
      Allowed (.reader read (.indexing indexed false)) (.valkey (.sadd (tagIndexKey tag) read.key))
  | extend {read : Read D} {indexed : Nat} {tag : Units} {rest : List Units}
      (now : read.tags.drop indexed = tag :: rest) :
      Allowed (.reader read (.indexing indexed true))
        (.valkey (.expire (tagIndexKey tag) TAG_INDEX_TTL_SECONDS))
  | change {changed : Bool} {todo : List Units} {change : D → D}
      (may : mayChange changed todo change) :
      Allowed (.writer changed todo none) (.changeDatabase change)
  | readIndex (changed : Bool) (tag : Units) (todo : List Units) :
      Allowed (.writer changed (tag :: todo) none) (.valkey (.smembers (tagIndexKey tag)))
  | delete (changed : Bool) (todo : List Units) (tag key : Units) (keys : List Units) :
      Allowed (.writer changed todo (some (tag, some (key :: keys)))) (.valkey (.del key))
  | deleteIndex (changed : Bool) (todo : List Units) (tag : Units) :
      Allowed (.writer changed todo (some (tag, some []))) (.valkey (.del (tagIndexKey tag)))
  | bump (changed : Bool) (todo : List Units) (tag : Units) :
      Allowed (.writer changed todo (some (tag, none))) (.valkey (.incr (tagGenerationKey tag)))
  | broken (call : CacheCall D) : Allowed .broken call

def tagProtocol : Protocol (CacheCall D) CacheResult (Memory D) :=
  ⟨Allowed mayChange, Memory.next⟩

variable (thrown : Memory D → Prop) {α β : Type}

/-- The program returns, and `post` holds, or it throws, and `thrown` does, unless a call
has failed that breaks what follows. -/
def Leads (g : Memory D) (p : CacheCalls D α) (post : α → Memory D → Prop) : Prop :=
  wpE (tagProtocol mayChange).spec p (fun result g' => g' = .broken ∨
    (∃ a, result = .ok a ∧ post a g') ∨ ∃ e, result = .error e ∧ thrown g') g

variable {mayChange thrown} {g : Memory D} {post : α → Memory D → Prop}

/-- After a failure anything may be called. -/
theorem wp_broken {p : Program (CacheCall D) CacheResult α}
    {Q : α → Memory D → Prop} (holds : ∀ a, Q a .broken) :
    p.wp (tagProtocol mayChange).spec Q .broken := by
  induction p with
  | done a => exact holds a
  | call op next ih =>
    refine ⟨.broken op, fun r => ?_⟩
    change (next r).wp (tagProtocol mayChange).spec Q (Memory.next .broken op r)
    rw [Memory.next_broken]
    exact ih r

theorem Leads.pure {a : α} (holds : post a g) : Leads mayChange thrown g (Pure.pure a) post :=
  Or.inr (Or.inl ⟨a, rfl, holds⟩)

theorem Leads.bind {p : CacheCalls D α} {f : α → CacheCalls D β} {post' : β → Memory D → Prop}
    (first : Leads mayChange thrown g p post)
    (rest : ∀ a g', post a g' → Leads mayChange thrown g' (f a) post') :
    Leads mayChange thrown g (p >>= f) post' := by
  rw [Leads, wpE_bind]
  refine wpE_mono (tagProtocol mayChange).spec_monotone (fun result g' here => ?_) first
  rcases here with rfl | ⟨a, rfl, holds⟩ | ⟨e, rfl, failed⟩
  · cases result with
    | error e => exact Or.inl rfl
    | ok a => exact wp_broken fun _ => Or.inl rfl
  · exact rest a g' holds
  · exact Or.inr (Or.inr ⟨e, rfl, failed⟩)

theorem Leads.bind_at {p : CacheCalls D α} {f : α → CacheCalls D β} {g₁ : Memory D}
    {post' : β → Memory D → Prop} (first : Leads mayChange thrown g p (fun _ g' => g' = g₁))
    (rest : ∀ a, Leads mayChange thrown g₁ (f a) post') :
    Leads mayChange thrown g (p >>= f) post' := by
  refine first.bind fun a g' same => ?_
  rw [same]
  exact rest a

/-- What breaks the others stays broken when it is caught. -/
theorem Leads.caught {thrown' : Memory D → Prop} {p : CacheCalls D α}
    {handler : Failure → CacheCalls D α} (body : Leads mayChange thrown' g p post)
    (handles : ∀ e g', thrown' g' → Leads mayChange thrown g' (handler e) post) :
    Leads mayChange thrown g (tryCatch p handler) post := by
  rw [Leads, wpE_tryCatch]
  refine wpE_mono (tagProtocol mayChange).spec_monotone (fun result g' here => ?_) body
  rcases here with rfl | ⟨a, rfl, holds⟩ | ⟨e, rfl, failed⟩
  · cases result with
    | error e => exact wp_broken fun _ => Or.inl rfl
    | ok a => exact Or.inl rfl
  · exact Or.inr (Or.inl ⟨a, rfl, holds⟩)
  · exact handles e g' failed

theorem Leads.send {command : Command Units} {post : command.Answer → Memory D → Prop}
    (allowed : Allowed mayChange g (.valkey command))
    (fails : g.failed (.valkey command) = .broken ∨ thrown (g.failed (.valkey command)))
    (holds : ∀ answer, post answer (g.answered command answer)) :
    Leads mayChange thrown g (send command) post := by
  refine ⟨allowed, fun result => ?_⟩
  cases result with
  | error e => exact fails.imp_right fun failed => Or.inr ⟨e, rfl, failed⟩
  | ok answer => exact Or.inr (Or.inl ⟨answer, rfl, holds answer⟩)

theorem Leads.readDatabase {post : D → Memory D → Prop} (allowed : Allowed mayChange g .readDatabase)
    (fails : g.failed .readDatabase = .broken ∨ thrown (g.failed .readDatabase))
    (holds : ∀ value, post value (g.next .readDatabase (.ok value))) :
    Leads mayChange thrown g readDatabase post := by
  refine ⟨allowed, fun result => ?_⟩
  cases result with
  | error e => exact fails.imp_right fun failed => Or.inr ⟨e, rfl, failed⟩
  | ok value => exact Or.inr (Or.inl ⟨value, rfl, holds value⟩)

theorem Leads.changeDatabase {changed : Bool} {todo : List Units} {change : D → D}
    {post : Unit → Memory D → Prop} (may : mayChange changed todo change)
    (holds : post () (.writer true todo none)) :
    Leads mayChange thrown (.writer changed todo none) (changeDatabase change) post := by
  refine ⟨.change may, fun result => ?_⟩
  cases result with
  | error e => exact Or.inl rfl
  | ok answer => exact Or.inr (Or.inl ⟨answer, rfl, holds⟩)

/-- A reader's pass over the generations of its tags, in the phase `phase`. -/
theorem leads_readTagGenerations {read : Read D} {phase : List Text → Phase D}
    (allowed : ∀ generations tag rest, read.tags.drop generations.length = tag :: rest →
      Allowed mayChange (.reader read (phase generations)) (.valkey (.get (tagGenerationKey tag))))
    (moves : ∀ generations key (answer : Option Text),
      (Memory.reader read (phase generations)).answered (.get key) answer =
        .reader read (phase (generations ++ [answer.getD INITIAL_TAG_GENERATION])))
    (fails : ∀ generations key, (Memory.reader read (phase generations)).failed
      (.valkey (.get key)) = .broken ∨
        thrown ((Memory.reader read (phase generations)).failed (.valkey (.get key)))) :
    Leads mayChange thrown (.reader read (phase [])) (readTagGenerations read.tags)
      (fun generations g => g = .reader read (phase generations) ∧
        generations.length = read.tags.length) := by
  have loop : ∀ (rest : List Units) (generations : List Text),
      read.tags.drop generations.length = rest → generations.length ≤ read.tags.length →
      Leads mayChange thrown (.reader read (phase generations))
        (rest.foldlM (fun generations tag => do
          let generation ← send (.get (tagGenerationKey tag))
          return generations ++ [Option.getD generation INITIAL_TAG_GENERATION]) generations)
        (fun generations g => g = .reader read (phase generations) ∧
          generations.length = read.tags.length) := by
    intro rest
    induction rest with
    | nil =>
      intro generations none within
      have all := List.drop_eq_nil_iff.mp none
      exact Leads.pure ⟨rfl, by omega⟩
    | cons tag rest ih =>
      intro generations now within
      have later : read.tags.drop (generations.length + 1) = rest := by
        rw [← List.drop_drop, now]
        rfl
      have room : generations.length < read.tags.length := by
        by_contra full
        rw [List.drop_eq_nil_of_le (by omega)] at now
        cases now
      have one : Leads mayChange thrown (.reader read (phase generations))
          (do
            let generation ← send (.get (tagGenerationKey tag))
            return generations ++ [Option.getD generation INITIAL_TAG_GENERATION])
          (fun after g => g = .reader read (phase after) ∧
            after.length = generations.length + 1) := by
        have got : Leads mayChange thrown (.reader read (phase generations))
            (send (.get (tagGenerationKey tag))) (fun answer g => g = .reader read
              (phase (generations ++ [Option.getD answer INITIAL_TAG_GENERATION]))) :=
          .send (allowed generations tag rest now) (fails generations _) (moves generations _)
        refine got.bind ?_
        rintro answer g rfl
        exact .pure ⟨rfl, by simp⟩
      rw [List.foldlM_cons]
      refine .bind one ?_
      rintro after g ⟨rfl, length⟩
      exact ih after (by rw [length]; exact later) (by omega)
  exact loop read.tags [] rfl (Nat.zero_le _)

variable {read : Read D} {value : D}

theorem leads_readTagGenerationSnapshot :
    Leads mayChange thrown (.reader read (.reading [])) (readTagGenerationSnapshot read.tags)
      (fun snapshot g => ∃ generations, snapshot = some generations ∧
        g = .reader read (.reading generations) ∧ generations.length = read.tags.length) := by
  unfold readTagGenerationSnapshot
  split
  · rename_i none
    exact .pure ⟨[], rfl, rfl, none.symm⟩
  · have taken : Leads mayChange (fun _ => False) (.reader read (.reading []))
        (readTagGenerations read.tags) (fun generations g =>
          g = .reader read (.reading generations) ∧ generations.length = read.tags.length) :=
      leads_readTagGenerations (fun _ _ _ => .snapshot) (fun _ _ _ => rfl) fun _ _ => .inl rfl
    refine .caught (taken.bind ?_) nofun
    rintro generations g ⟨rfl, length⟩
    exact .pure ⟨generations, rfl, rfl, length⟩

theorem leads_indexTagKeys {indexed : Nat} {rest : List Units} (now : read.tags.drop indexed = rest) :
    Leads mayChange thrown (.reader read (.indexing indexed false))
      (forM rest fun tag => indexTagKey tag read.key)
      (fun _ g => ∃ phase, g = .reader read phase) := by
  induction rest generalizing indexed with
  | nil => exact .pure ⟨_, rfl⟩
  | cons tag rest ih =>
    have later : read.tags.drop (indexed + 1) = rest := by
      rw [← List.drop_drop, now]
      rfl
    have listed : Leads mayChange thrown (.reader read (.indexing indexed false))
        (send (.sadd (tagIndexKey tag) read.key))
        (fun _ g => g = .reader read (.indexing indexed true)) := .send (.list now) (.inl rfl) fun _ => rfl
    have extended : Leads mayChange thrown (.reader read (.indexing indexed true))
        (send (.expire (tagIndexKey tag) TAG_INDEX_TTL_SECONDS))
        (fun _ g => g = .reader read (.indexing (indexed + 1) false)) :=
      .send (.extend now) (.inl rfl) fun _ => rfl
    have indexes : Leads mayChange thrown (.reader read (.indexing indexed false))
        (indexTagKey tag read.key)
        (fun _ g => g = .reader read (.indexing (indexed + 1) false)) := by
      exact listed.bind_at fun _ => extended
    rw [List.forM_cons]
    exact indexes.bind_at fun _ => ih later

theorem leads_storeUnlessInvalidated {before : List Text}
    (complete : before.length = read.tags.length) :
    Leads mayChange (fun g => ∃ phase, g = .reader read phase)
      (.reader read (.checking before value []))
      (storeUnlessInvalidated read.key (read.render value) read.ttl read.tags (some before))
      (fun _ g => ∃ phase, g = .reader read phase) := by
  have store : ∀ after : List Text, after.length = read.tags.length →
      tagGenerationsChanged before after = false →
      Leads mayChange (fun g => ∃ phase, g = .reader read phase)
        (.reader read (.checking before value after))
        (do
          send (.set read.key (stringify (read.render value)) (some read.ttl))
          forM read.tags fun tag => indexTagKey tag read.key)
        (fun _ g => ∃ phase, g = .reader read phase) := by
    intro after complete unchanged
    have stored : Leads mayChange (fun g => ∃ phase, g = .reader read phase)
        (.reader read (.checking before value after))
        (send (.set read.key (stringify (read.render value)) (some read.ttl)))
        (fun _ g => g = .reader read (.indexing 0 false)) :=
      .send (.store complete unchanged) (.inl rfl) fun _ => rfl
    exact stored.bind_at fun _ => leads_indexTagKeys rfl
  unfold storeUnlessInvalidated
  simp only
  split
  · refine .bind (leads_readTagGenerations (fun _ _ _ => .compare) (fun _ _ _ => rfl)
      fun _ _ => .inr ⟨_, rfl⟩) ?_
    rintro after g ⟨rfl, length⟩
    split
    · exact .pure ⟨_, rfl⟩
    · rename_i unchanged
      exact store after length (Bool.not_eq_true _ ▸ unchanged)
  · rename_i none
    have empty : read.tags.length = 0 := by omega
    obtain rfl := List.length_eq_zero_iff.mp (complete.trans empty)
    exact store [] complete rfl

variable {changed : Bool}

theorem leads_sweepTag (tag : Units) (todo : List Units) :
    Leads mayChange thrown (.writer changed (tag :: todo) none) (sweepTag tag)
      (fun _ g => g = .writer changed todo none) := by
  have deletes : ∀ keys : List Units, Leads mayChange thrown (.writer changed todo (some (tag, some keys)))
      (forM keys fun key => send (.del key))
      (fun _ g => g = .writer changed todo (some (tag, some []))) := by
    intro keys
    induction keys with
    | nil => exact .pure rfl
    | cons key keys ih =>
      have deleted : Leads mayChange thrown (.writer changed todo (some (tag, some (key :: keys))))
          (send (.del key)) (fun _ g => g = .writer changed todo (some (tag, some keys))) :=
        .send (.delete changed todo tag key keys) (.inl rfl) fun _ => rfl
      change Leads mayChange thrown _ (send (.del key) >>= fun _ => forM keys fun key => send (.del key)) _
      exact deleted.bind_at fun _ => ih
  have reads : Leads mayChange thrown (.writer changed (tag :: todo) none)
      (send (.smembers (tagIndexKey tag)))
      (fun (keys : List Units) g => g = .writer changed todo (some (tag, some keys))) :=
    .send (.readIndex changed tag todo) (.inl rfl) fun _ => rfl
  have deletesIndex : Leads mayChange thrown (.writer changed todo (some (tag, some [])))
      (send (.del (tagIndexKey tag)))
      (fun _ g => g = .writer changed todo (some (tag, none))) :=
    .send (.deleteIndex changed todo tag) (.inl rfl) fun _ => rfl
  have bumps : Leads mayChange thrown (.writer changed todo (some (tag, none)))
      (bumpTagGenerations [tag]) (fun _ g => g = .writer changed todo none) := by
    have bumped : Leads mayChange thrown (.writer changed todo (some (tag, none)))
        (send (.incr (tagGenerationKey tag))) (fun _ g => g = .writer changed todo none) :=
      .send (.bump changed todo tag) (.inl rfl) fun _ => rfl
    exact .bind_at (.bind_at bumped fun _ => .pure rfl) fun _ => .pure rfl
  refine reads.bind ?_
  rintro keys _ rfl
  exact (deletes keys).bind_at fun _ => deletesIndex.bind_at fun _ => bumps

theorem leads_sweepTags (tags : List Units) :
    Leads mayChange thrown (.writer changed tags none) (sweepTags tags)
      (fun _ g => g = .writer changed [] none) := by
  induction tags with
  | nil => exact .pure rfl
  | cons tag rest ih =>
    have first : Leads mayChange thrown (.writer changed (tag :: rest) none)
        (tryCatch (sweepTag tag) fun _ => return ()) (fun _ g => g = .writer changed rest none) := by
      have swept : Leads mayChange (fun _ => False) (.writer changed (tag :: rest) none)
          (sweepTag tag) (fun _ g => g = .writer changed rest none) := leads_sweepTag tag rest
      exact swept.caught nofun
    rw [sweepTags, List.forM_cons]
    exact first.bind_at fun _ => ih

end Protocol
end Caching
