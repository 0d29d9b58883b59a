import Hakawi.Caching.TaggedCacheService

/-!
# The cache service on a store that answers

One method at a time, every command carried out, at any pace. What the methods do is said of the
keys of some values and of the two keys of one tag: values only fade, apart from the one that a
write puts under its key, and the tag's keys keep their kinds.
-/

namespace Caching
open Html Common Effects

structure StoreState where
  /-- In milliseconds. -/
  clock : Int
  store : Valkey Units

namespace StoreState

/-- What is found under a key now. -/
def live (state : StoreState) (key : Units) : Option (Entry Units) :=
  state.store.live state.clock key

def exec {D : Type} (elapsed : Nat) (state : StoreState) (call : CacheCall D) :
    CacheResult call × StoreState :=
  match call with
  | .valkey command =>
    ((state.store.exec (state.clock + elapsed) command).1,
      ⟨state.clock + elapsed, (state.store.exec (state.clock + elapsed) command).2⟩)
  | .readDatabase => (.error queryFailed, state)
  | .changeDatabase _ => (.error queryFailed, state)

/-- An entry that is still found was found before. -/
theorem live_of_later {store : Valkey Units} {time time' : Int} (later : time ≤ time') {key : Units}
    {entry : Entry Units} (found : store.live time' key = some entry) :
    store.live time key = some entry := by
  rw [Valkey.live_eq_some] at found ⊢
  exact ⟨found.1, fun limit member => by have := found.2 limit member; omega⟩

end StoreState

/-- Any time passes before each command. -/
abbrev storeSpec {D : Type} : Program.OpSpec (CacheCall D) CacheResult StoreState :=
  Program.execSpec StoreState.exec fun _ => True

section Kinds
variable (Value : Units → Prop) (tag : Units)

/-- Each key holds what belongs there. -/
structure Tidy (state : StoreState) : Prop where
  values : ∀ key, Value key → ∀ e, state.live key = some e → ∃ text, e.content = .text text
  index : ∀ e, state.live (tagIndexKey tag) = some e → ∃ keys, e.content = .members keys
  generation : ∀ e, state.live (tagGenerationKey tag) = some e →
    ∃ n, e.content = .text (.integer n)

/-- A value that is found was found before, and not under a key that was dropped, or was put
there. -/
structure Leaves (put : Units → Text → Prop) (gone : Units → Prop) (before after : StoreState) :
    Prop where
  later : before.clock ≤ after.clock
  tidy : Tidy Value tag after
  values : ∀ key, Value key → ∀ e, after.live key = some e →
    before.live key = some e ∧ ¬ gone key ∨ ∃ text, e.content = .text text ∧ put key text

/-- Nothing was put. -/
abbrev Faded : (Units → Prop) → StoreState → StoreState → Prop :=
  Leaves Value tag fun _ _ => False

variable {Value tag} {put put' : Units → Text → Prop} {gone gone' : Units → Prop}
  {before between after : StoreState}

theorem Leaves.refl (tidy : Tidy Value tag before) :
    Leaves Value tag put (fun _ => False) before before :=
  ⟨Int.le_refl _, tidy, fun _ _ _ found => Or.inl ⟨found, id⟩⟩

/-- What is dropped first and put later is there. -/
theorem Leaves.trans (early : Leaves Value tag put gone before between)
    (late : Leaves Value tag put gone' between after) :
    Leaves Value tag put (fun key => gone key ∨ gone' key) before after where
  later := Int.le_trans early.later late.later
  tidy := late.tidy
  values key value e found := by
    rcases late.values key value e found with ⟨still, kept⟩ | new
    · rcases early.values key value e still with ⟨was, kept'⟩ | new
      · exact Or.inl ⟨was, fun either => either.elim kept' kept⟩
      · exact Or.inr new
    · exact Or.inr new

theorem Leaves.weaken (leaves : Leaves Value tag put gone before after)
    (fewer : ∀ key, gone' key → gone key) : Leaves Value tag put gone' before after :=
  ⟨leaves.later, leaves.tidy, fun key value e found =>
    (leaves.values key value e found).imp_left fun ⟨was, kept⟩ =>
      ⟨was, fun left => kept (fewer key left)⟩⟩

theorem Leaves.then (early : Leaves Value tag put (fun _ => False) before between)
    (late : Leaves Value tag put gone between after) : Leaves Value tag put gone before after :=
  (early.trans late).weaken fun _ => Or.inr

/-- One command, given what it makes of its own key. -/
theorem leaves_of_key (tidy : Tidy Value tag before) (later : before.clock ≤ after.clock)
    (own : Units)
    (frame : ∀ key, key ≠ own → after.store.entries key = before.store.entries key)
    (value : Value own → ∀ e, after.live own = some e →
      before.live own = some e ∨ ∃ text, e.content = .text text ∧ put own text)
    (index : own = tagIndexKey tag → ∀ e, after.live own = some e →
      ∃ keys, e.content = .members keys)
    (generation : own = tagGenerationKey tag → ∀ e, after.live own = some e →
      ∃ n, e.content = .text (.integer n)) :
    Leaves Value tag put (fun _ => False) before after := by
  have was {key : Units} (other : key ≠ own) {e : Entry Units} (found : after.live key = some e) :
      before.live key = some e := by
    refine StoreState.live_of_later later ?_
    rw [Valkey.live_eq_some, ← frame key other]
    exact Valkey.live_eq_some.mp found
  have values : ∀ key, Value key → ∀ e, after.live key = some e →
      before.live key = some e ∨ ∃ text, e.content = .text text ∧ put key text := by
    intro key belongs e found
    by_cases same : key = own
    · subst same
      exact value belongs e found
    · exact Or.inl (was same found)
  refine ⟨later, ⟨fun key belongs e found => ?_, fun e found => ?_, fun e found => ?_⟩,
    fun key belongs e found => (values key belongs e found).imp_left fun old => ⟨old, id⟩⟩
  · rcases values key belongs e found with old | ⟨text, holds, -⟩
    · exact tidy.values key belongs e old
    · exact ⟨text, holds⟩
  · by_cases same : tagIndexKey tag = own
    · exact index same.symm e (same ▸ found)
    · exact tidy.index e (was same found)
  · by_cases same : tagGenerationKey tag = own
    · exact generation same.symm e (same ▸ found)
    · exact tidy.generation e (was same found)

/-- Time passes. -/
theorem Tidy.wait (tidy : Tidy Value tag before) (put : Units → Text → Prop) (elapsed : Nat) :
    Leaves Value tag put (fun _ => False) before ⟨before.clock + elapsed, before.store⟩ := by
  have later : before.clock ≤ (⟨before.clock + elapsed, before.store⟩ : StoreState).clock :=
    Int.le_add_of_nonneg_right (Int.natCast_nonneg elapsed)
  have was {key : Units} {e : Entry Units}
      (found : (⟨before.clock + elapsed, before.store⟩ : StoreState).live key = some e) :
      before.live key = some e := StoreState.live_of_later later found
  exact ⟨later, ⟨fun key value e found => tidy.values key value e (was found),
    fun e found => tidy.index e (was found), fun e found => tidy.generation e (was found)⟩,
    fun _ _ _ found => Or.inl ⟨was found, id⟩⟩

/-- The state after one command. -/
def StoreState.sent (elapsed : Nat) (state : StoreState) (command : Command Units) : StoreState :=
  ⟨state.clock + elapsed, (state.store.exec (state.clock + elapsed) command).2⟩

theorem StoreState.clock_le_sent (elapsed : Nat) (state : StoreState) (command : Command Units) :
    state.clock ≤ (state.sent elapsed command).clock :=
  Int.le_add_of_nonneg_right (Int.natCast_nonneg elapsed)

theorem StoreState.sent_frame (elapsed : Nat) (state : StoreState) (command : Command Units)
    {key : Units} (different : key ≠ command.key) :
    (state.sent elapsed command).store.entries key = state.store.entries key :=
  Valkey.exec_frame command different

section Commands
variable (tidy : Tidy Value tag before) (elapsed : Nat)
include tidy

theorem leaves_del (key : Units) :
    Leaves Value tag put (· = key) before (before.sent elapsed (.del key)) := by
  have absent : ∀ e, (before.sent elapsed (.del key)).live key ≠ some e := by
    intro e found
    have stored := (Valkey.live_eq_some.mp found).1
    simp only [StoreState.sent, Valkey.exec, Valkey.del, Valkey.put_entries_self] at stored
    cases stored
  have leaves : Leaves Value tag put (fun _ => False) before (before.sent elapsed (.del key)) := by
    exact leaves_of_key tidy (before.clock_le_sent elapsed _) key
      (fun other => before.sent_frame elapsed (.del key))
      (fun _ e found => absurd found (absent e)) (fun _ e found => absurd found (absent e))
      fun _ e found => absurd found (absent e)
  refine ⟨leaves.later, leaves.tidy, fun other value e found => ?_⟩
  refine (leaves.values other value e found).imp_left fun old => ⟨old.1, fun same => ?_⟩
  subst same
  exact absent e found

/-- A command on a key of neither kind. -/
theorem leaves_elsewhere (command : Command Units) (plain : ¬ Value command.key)
    (index : command.key ≠ tagIndexKey tag) (generation : command.key ≠ tagGenerationKey tag) :
    Leaves Value tag put (fun _ => False) before (before.sent elapsed command) := by
  exact leaves_of_key tidy (before.clock_le_sent elapsed _) command.key
    (fun other => before.sent_frame elapsed command) (fun value => absurd value plain)
    (fun same => absurd same index) fun same => absurd same generation

/-- A command on the index that leaves a set there. -/
theorem leaves_index (command : Command Units) (own : command.key = tagIndexKey tag)
    (apart : ¬ Value (tagIndexKey tag)) (set : ∀ e, (before.sent elapsed command).live
      (tagIndexKey tag) = some e → ∃ keys, e.content = .members keys) :
    Leaves Value tag put (fun _ => False) before (before.sent elapsed command) := by
  exact leaves_of_key tidy (before.clock_le_sent elapsed _) (tagIndexKey tag)
    (fun other different => before.sent_frame elapsed command (own ▸ different))
    (fun value => absurd value apart) (fun _ => set)
    fun same => absurd same (tagIndexKey_ne_tagGenerationKey tag tag)

/-- What stands in the index at the time of a command. -/
theorem index_cases : before.store.live (before.clock + elapsed) (tagIndexKey tag) = none ∨
    ∃ keys time, before.store.live (before.clock + elapsed) (tagIndexKey tag) =
      some ⟨.members keys, time⟩ := by
  cases found : before.store.live (before.clock + elapsed) (tagIndexKey tag) with
  | none => exact Or.inl rfl
  | some e =>
    obtain ⟨content, time⟩ := e
    obtain ⟨keys, rfl⟩ : ∃ keys, content = .members keys :=
      (tidy.wait (fun _ _ => False) elapsed).tidy.index _ found
    exact Or.inr ⟨keys, time, rfl⟩

theorem generation_cases :
    before.store.live (before.clock + elapsed) (tagGenerationKey tag) = none ∨
    ∃ n time, before.store.live (before.clock + elapsed) (tagGenerationKey tag) =
      some ⟨.text (.integer n), time⟩ := by
  cases found : before.store.live (before.clock + elapsed) (tagGenerationKey tag) with
  | none => exact Or.inl rfl
  | some e =>
    obtain ⟨content, time⟩ := e
    obtain ⟨n, rfl⟩ : ∃ n, content = .text (.integer n) :=
      (tidy.wait (fun _ _ => False) elapsed).tidy.generation _ found
    exact Or.inr ⟨n, time, rfl⟩

theorem leaves_srem (member : Units) (apart : ¬ Value (tagIndexKey tag)) :
    (before.store.exec (before.clock + elapsed) (.srem (tagIndexKey tag) member)).1 = .ok () ∧
      Leaves Value tag put (fun _ => False) before
        (before.sent elapsed (.srem (tagIndexKey tag) member)) := by
  rcases index_cases tidy elapsed with none | ⟨keys, time, found⟩
  · have same : before.store.exec (before.clock + elapsed) (.srem (tagIndexKey tag) member) =
        (.ok (), before.store) := by
      rw [Valkey.exec, Valkey.srem, none]
      rfl
    rw [StoreState.sent, same]
    exact ⟨rfl, tidy.wait put elapsed⟩
  · have removed : before.store.exec (before.clock + elapsed) (.srem (tagIndexKey tag) member) =
        (.ok (), before.store.put (tagIndexKey tag) (if keys.filter (· ≠ member) = [] then .none
          else some ⟨.members (keys.filter (· ≠ member)), time⟩)) := by
      rw [Valkey.exec, Valkey.srem, found]
      rfl
    refine ⟨by rw [removed], leaves_index tidy elapsed _ rfl apart fun e kept => ?_⟩
    rw [StoreState.sent, removed] at kept
    have stored := (Valkey.live_eq_some.mp kept).1
    rw [Valkey.put_entries_self] at stored
    split at stored
    · cases stored
    · cases stored
      exact ⟨_, rfl⟩

theorem leaves_sadd (member : Units) (apart : ¬ Value (tagIndexKey tag)) :
    (before.store.exec (before.clock + elapsed) (.sadd (tagIndexKey tag) member)).1 = .ok () ∧
      Leaves Value tag put (fun _ => False) before
        (before.sent elapsed (.sadd (tagIndexKey tag) member)) := by
  obtain ⟨keys, time, added⟩ : ∃ keys time,
      before.store.exec (before.clock + elapsed) (.sadd (tagIndexKey tag) member) =
        (.ok (), before.store.put (tagIndexKey tag) (some ⟨.members keys, time⟩)) := by
    rcases index_cases tidy elapsed with none | ⟨keys, time, found⟩
    · exact ⟨[member], .none, by rw [Valkey.exec, Valkey.sadd, none]; rfl⟩
    · exact ⟨_, time, by rw [Valkey.exec, Valkey.sadd, found]; rfl⟩
  refine ⟨by rw [added], leaves_index tidy elapsed _ rfl apart fun e kept => ?_⟩
  rw [StoreState.sent, added] at kept
  have stored := (Valkey.live_eq_some.mp kept).1
  rw [Valkey.put_entries_self] at stored
  cases stored
  exact ⟨_, rfl⟩

theorem leaves_expire (seconds : Int) (apart : ¬ Value (tagIndexKey tag)) :
    Leaves Value tag put (fun _ => False) before
      (before.sent elapsed (.expire (tagIndexKey tag) seconds)) := by
  refine leaves_index tidy elapsed _ rfl apart fun e kept => ?_
  rw [StoreState.sent, Valkey.exec, Valkey.expire] at kept
  rcases index_cases tidy elapsed with none | ⟨keys, time, found⟩
  · rw [none] at kept
    cases none.symm.trans kept
  · rw [found] at kept
    have stored := (Valkey.live_eq_some.mp kept).1
    rw [Valkey.put_entries_self] at stored
    cases stored
    exact ⟨_, rfl⟩

theorem leaves_incr (apart : ¬ Value (tagGenerationKey tag)) :
    (∃ n, (before.store.exec (before.clock + elapsed) (.incr (tagGenerationKey tag))).1 = .ok n) ∧
      Leaves Value tag put (fun _ => False) before
        (before.sent elapsed (.incr (tagGenerationKey tag))) := by
  obtain ⟨n, time, raised⟩ : ∃ n time,
      before.store.exec (before.clock + elapsed) (.incr (tagGenerationKey tag)) =
        (.ok n, before.store.put (tagGenerationKey tag) (some ⟨.text (.integer n), time⟩)) := by
    rcases generation_cases tidy elapsed with none | ⟨n, time, found⟩
    · exact ⟨1, .none, by rw [Valkey.exec, Valkey.incr, none]; rfl⟩
    · exact ⟨n + 1, time, by rw [Valkey.exec, Valkey.incr, found]; rfl⟩
  refine ⟨⟨n, by rw [raised]⟩, leaves_of_key tidy (before.clock_le_sent elapsed _)
    (tagGenerationKey tag) (fun other => before.sent_frame elapsed (.incr (tagGenerationKey tag)))
    (fun value => absurd value apart)
    (fun same => absurd same.symm (tagIndexKey_ne_tagGenerationKey tag tag)) fun _ e kept => ?_⟩
  rw [StoreState.sent, raised] at kept
  have stored := (Valkey.live_eq_some.mp kept).1
  rw [Valkey.put_entries_self] at stored
  cases stored
  exact ⟨_, rfl⟩

theorem leaves_set (key : Units) (text : Text) {ttl : Int} (positive : 0 < ttl)
    (index : key ≠ tagIndexKey tag) (generation : key ≠ tagGenerationKey tag)
    (puts : put key text) :
    Leaves Value tag put (fun _ => False) before
      (before.sent elapsed (.set key text (some ttl))) := by
  have stored : (before.sent elapsed (.set key text (some ttl))).store =
      before.store.put key (some ⟨.text text, some (before.clock + elapsed + ttl * 1000)⟩) := by
    have nonzero : ¬ ttl = 0 := by omega
    have nonneg : ¬ ttl < 0 := by omega
    simp only [StoreState.sent, Valkey.exec, Valkey.set, nonzero, nonneg, if_false]
    rfl
  refine leaves_of_key tidy (before.clock_le_sent elapsed _) key
    (fun other => before.sent_frame elapsed (.set key text (some ttl))) (fun _ e found => ?_)
    (fun same => absurd same index) fun same => absurd same generation
  have holds := (Valkey.live_eq_some.mp found).1
  rw [stored, Valkey.put_entries_self] at holds
  cases holds
  exact Or.inr ⟨text, rfl, puts⟩

end Commands

/-- Values are kept apart from what belongs to the tags. -/
structure Apart (Value : Units → Prop) : Prop where
  index : ∀ tag, ¬ Value (tagIndexKey tag)
  generation : ∀ tag, ¬ Value (tagGenerationKey tag)

/-- The calls that keep each key to what belongs there. -/
inductive Orderly {D : Type} (Value : Units → Prop) (put : Units → Text → Prop) :
    CacheCall D → Prop where
  | get (key : Units) : Orderly Value put (.valkey (.get key))
  | smembers (key : Units) : Orderly Value put (.valkey (.smembers key))
  | del (key : Units) : Orderly Value put (.valkey (.del key))
  | sadd (tag key : Units) : Orderly Value put (.valkey (.sadd (tagIndexKey tag) key))
  | expire (tag : Units) (seconds : Int) :
    Orderly Value put (.valkey (.expire (tagIndexKey tag) seconds))
  | incr (tag : Units) : Orderly Value put (.valkey (.incr (tagGenerationKey tag)))
  | set {key : Units} {text : Text} {ttl : Int} (value : Value key) (positive : 0 < ttl)
    (puts : put key text) : Orderly Value put (.valkey (.set key text (some ttl)))

theorem Orderly.leaves {D : Type} {call : CacheCall D} (orderly : Orderly Value put call)
    (apart : Apart Value) (tidy : Tidy Value tag before) (elapsed : Nat) :
    Leaves Value tag put (fun _ => False) before (before.exec elapsed call).2 := by
  cases orderly with
  | get key => exact tidy.wait put elapsed
  | smembers key => exact tidy.wait put elapsed
  | del key => exact (leaves_del tidy elapsed key).weaken fun _ => False.elim
  | sadd other key =>
    by_cases same : other = tag
    · subst same
      exact (leaves_sadd tidy elapsed key (apart.index other)).2
    · exact leaves_elsewhere tidy elapsed (.sadd (tagIndexKey other) key) (apart.index other)
        (fun equal => same (tagIndexKey_injective equal)) (tagIndexKey_ne_tagGenerationKey other tag)
  | expire other seconds =>
    by_cases same : other = tag
    · subst same
      exact leaves_expire tidy elapsed seconds (apart.index other)
    · exact leaves_elsewhere tidy elapsed (.expire (tagIndexKey other) seconds)
        (apart.index other) (fun equal => same (tagIndexKey_injective equal))
        (tagIndexKey_ne_tagGenerationKey other tag)
  | incr other =>
    by_cases same : other = tag
    · subst same
      exact (leaves_incr tidy elapsed (apart.generation other)).2
    · exact leaves_elsewhere tidy elapsed (.incr (tagGenerationKey other))
        (apart.generation other) (tagIndexKey_ne_tagGenerationKey tag other).symm
        (fun equal => same (tagGenerationKey_injective equal))
  | @set key text ttl value positive puts =>
    exact leaves_set tidy elapsed key text positive
      (fun same => apart.index tag (same ▸ value)) (fun same => apart.generation tag (same ▸ value))
      puts

/-- What orderly calls leave, whatever they answer. -/
theorem wpE_orderly {D α : Type} {p : CacheCalls D α} (orderly : OnlyE (Orderly Value put) p)
    (apart : Apart Value) (tidy : Tidy Value tag before) :
    wpE storeSpec p (fun _ after => Leaves Value tag put (fun _ => False) before after) before := by
  have keeps : ∀ elapsed state (call : CacheCall D), Orderly Value put call →
      Leaves Value tag put (fun _ => False) before state →
      Leaves Value tag put (fun _ => False) before (StoreState.exec elapsed state call).2 :=
    fun elapsed _ _ one leaves => leaves.then (one.leaves apart leaves.tidy elapsed)
  exact orderly.only.wp_inv keeps (.refl tidy)

variable (Value tag put) in
/-- A call that leaves the values as they are, apart from what it puts. -/
def Keeps {D : Type} (call : CacheCall D) : Prop :=
  ∀ before, Tidy Value tag before → ∀ elapsed,
    Leaves Value tag put (fun _ => False) before (before.exec elapsed call).2

theorem Orderly.keeps {D : Type} {call : CacheCall D} (orderly : Orderly Value put call)
    (apart : Apart Value) : Keeps Value tag put call :=
  fun _ tidy elapsed => orderly.leaves apart tidy elapsed

theorem keeps_srem {D : Type} (apart : Apart Value) (other member : Units) :
    Keeps Value tag put (.valkey (.srem (tagIndexKey other) member) : CacheCall D) := by
  intro before tidy elapsed
  by_cases same : other = tag
  · subst same
    exact (leaves_srem tidy elapsed member (apart.index other)).2
  · exact leaves_elsewhere tidy elapsed (.srem (tagIndexKey other) member) (apart.index other)
      (fun equal => same (tagIndexKey_injective equal)) (tagIndexKey_ne_tagGenerationKey other tag)

/-- A command on a key that is neither a value nor of the tags. -/
theorem keeps_elsewhere {D : Type} {command : Command Units} (plain : ¬ Value command.key)
    (index : command.key ≠ tagIndexKey tag) (generation : command.key ≠ tagGenerationKey tag) :
    Keeps Value tag put (.valkey command : CacheCall D) :=
  fun _ tidy elapsed => leaves_elsewhere tidy elapsed command plain index generation

theorem wpE_keeps {D α : Type} {p : CacheCalls D α} (keeps : OnlyE (Keeps Value tag put) p)
    (tidy : Tidy Value tag before) :
    wpE storeSpec p (fun _ after => Leaves Value tag put (fun _ => False) before after) before := by
  have steps : ∀ elapsed state (call : CacheCall D), Keeps Value tag put call →
      Leaves Value tag put (fun _ => False) before state →
      Leaves Value tag put (fun _ => False) before (StoreState.exec elapsed state call).2 :=
    fun elapsed _ _ one leaves => leaves.then (one _ leaves.tidy elapsed)
  exact keeps.only.wp_inv steps (.refl tidy)

end Kinds

section Methods
variable {D : Type} {Value : Units → Prop} {tag : Units} {put : Units → Text → Prop}
  {before : StoreState}

theorem onlyE_send {A : CacheCall D → Prop} {command : Command Units}
    (one : A (.valkey command)) : OnlyE A (send command : CacheCalls D command.Answer) :=
  ⟨one, fun _ => trivial⟩

theorem onlyE_forM {A : CacheCall D → Prop} {ι : Type} {body : ι → CacheCalls D Unit}
    (each : ∀ item, OnlyE A (body item)) (items : List ι) : OnlyE A (forM items body) := by
  induction items with
  | nil => exact onlyE_pure ()
  | cons item rest ih =>
    rw [List.forM_cons]
    exact (each item).bind fun _ => ih

theorem onlyE_readTagGenerations {A : CacheCall D → Prop} (reads : ∀ key, A (.valkey (.get key)))
    (tags : List Units) : OnlyE A (readTagGenerations tags : CacheCalls D (List Text)) :=
  OnlyE.foldlM (fun _ _ => (onlyE_send (reads _)).bind fun _ => onlyE_pure _) tags []

theorem orderly_readTagGenerationSnapshot (tags : List Units) :
    OnlyE (Orderly Value put) (readTagGenerationSnapshot tags : CacheCalls D _) := by
  rw [readTagGenerationSnapshot]
  split
  · exact onlyE_pure _
  · exact ((onlyE_readTagGenerations .get tags).bind fun _ => onlyE_pure _).tryCatch
      fun _ => onlyE_pure _

theorem orderly_sweepTags (tags : List Units) :
    OnlyE (Orderly Value put) (sweepTags tags : CacheCalls D Unit) := by
  refine onlyE_forM (fun tag => ?_) tags
  have bumped : OnlyE (Orderly Value put) (bumpTagGenerations [tag] : CacheCalls D Unit) :=
    onlyE_forM (fun tag => (onlyE_send (.incr tag)).bind fun _ => onlyE_pure _) [tag]
  have swept : OnlyE (Orderly Value put) (sweepTag tag : CacheCalls D Unit) :=
    (onlyE_send (.smembers _)).bind fun keys =>
      (onlyE_forM (fun key => onlyE_send (.del key)) keys).bind fun _ =>
        (onlyE_send (.del _)).bind fun _ => bumped
  exact swept.tryCatch fun _ => onlyE_pure _

theorem onlyE_set {A : CacheCall D → Prop} {cacheNamespace key : Units} {value : Json} {ttl : Int}
    (reads : ∀ key, A (.valkey (.get key)))
    (stores : A (.valkey (.set (TaggedCacheService.buildKey cacheNamespace key) (stringify value)
      (some ttl))))
    (lists : ∀ tag member, A (.valkey (.sadd (tagIndexKey tag) member)))
    (expires : ∀ tag seconds, A (.valkey (.expire (tagIndexKey tag) seconds)))
    (tags : List Units) (expected : TagGenerationSnapshot) :
    OnlyE A
      (TaggedCacheService.set cacheNamespace key value ttl tags expected : CacheCalls D Unit) := by
  have puts : OnlyE A (do
      send (.set (TaggedCacheService.buildKey cacheNamespace key) (stringify value) (some ttl))
      forM tags fun tag => indexTagKey tag (TaggedCacheService.buildKey cacheNamespace key) :
      CacheCalls D Unit) :=
    (onlyE_send stores).bind fun _ => onlyE_forM (fun tag =>
      (onlyE_send (lists tag _)).bind fun _ => onlyE_send (expires tag _)) tags
  refine OnlyE.tryCatch ?_ fun _ => onlyE_pure _
  cases expected with
  | none => exact puts
  | some generations =>
    simp only [storeUnlessInvalidated]
    split
    · refine (onlyE_readTagGenerations reads tags).bind fun current => ?_
      split
      · exact onlyE_pure _
      · exact puts
    · exact puts

/-- A command that is answered, and what comes after the answer. -/
theorem wpE_send {β : Type} {command : Command Units} {next : command.Answer → CacheCalls D β}
    {Q : Except Failure β → StoreState → Prop} {state : StoreState}
    (answers : ∀ elapsed : Nat, ∃ a, (state.store.exec (state.clock + elapsed) command).1 = .ok a ∧
      wpE storeSpec (next a) Q (state.sent elapsed command)) :
    wpE storeSpec (send command >>= next) Q state := by
  intro elapsed _
  obtain ⟨a, answered, goes⟩ := answers elapsed
  simp only [StoreState.exec, answered]
  exact goes

/-- What is caught is not thrown. -/
theorem wpE_caught {α : Type} (p : CacheCalls D α) (a : α) (state : StoreState) :
    wpE storeSpec (tryCatch p fun _ => return a) (fun result _ => ∃ b, result = .ok b) state := by
  rw [wpE_tryCatch]
  refine Program.wp_of_forall (fun result _ => ?_) p.run state
  cases result with
  | ok b => exact ⟨b, rfl⟩
  | error e => exact ⟨a, rfl⟩

theorem orderly_get (cacheNamespace key : Units) (revive : Json → Option (Option D)) :
    OnlyE (Orderly Value put)
      (TaggedCacheService.get cacheNamespace key revive : CacheCalls D (Option D)) := by
  have drops : OnlyE (Orderly Value put) (do
      send (.del (TaggedCacheService.buildKey cacheNamespace key))
      return none : CacheCalls D (Option D)) := (onlyE_send (.del _)).bind fun _ => onlyE_pure _
  refine (onlyE_send (.get _)).bind fun cached => ?_
  cases cached with
  | none => exact onlyE_pure _
  | some text =>
    simp only
    split
    · exact onlyE_pure _
    · exact drops

/-- A lookup answers, and what it returns it revived from a value found at the start. -/
theorem wpE_get (cacheNamespace key : Units) (revive : Json → Option (Option D))
    (apart : Apart Value) (tidy : Tidy Value tag before)
    (belongs : Value (TaggedCacheService.buildKey cacheNamespace key)) :
    wpE storeSpec (TaggedCacheService.get cacheNamespace key revive) (fun result after =>
      Faded Value tag (fun _ => False) before after ∧ ∃ found, result = .ok found ∧
        ∀ d, found = some d → ∃ e text,
          before.live (TaggedCacheService.buildKey cacheNamespace key) = some e ∧
          e.content = .text text ∧ text.parseJson.bind revive = some (some d)) before := by
  refine Program.wp_and (wpE_orderly (orderly_get cacheNamespace key revive) apart tidy)
    (wpE_send fun elapsed => ?_)
  simp only [Valkey.exec, Valkey.get]
  cases looked : before.store.live (before.clock + elapsed)
      (TaggedCacheService.buildKey cacheNamespace key) with
  | none => exact ⟨none, rfl, none, rfl, by simp⟩
  | some e =>
    obtain ⟨content, time⟩ := e
    have was : before.live (TaggedCacheService.buildKey cacheNamespace key) =
        some ⟨content, time⟩ :=
      StoreState.live_of_later (Int.le_add_of_nonneg_right (Int.natCast_nonneg elapsed)) looked
    obtain ⟨text, rfl⟩ : ∃ text, content = .text text := tidy.values _ belongs _ was
    refine ⟨some text, rfl, ?_⟩
    cases revived : text.parseJson.bind revive with
    | none =>
      simp only [revived]
      exact fun _ _ => ⟨none, rfl, by simp⟩
    | some value =>
      simp only [revived]
      exact ⟨value, rfl, fun d same => ⟨_, text, was, rfl, by rw [revived, same]⟩⟩

theorem wpE_readTagGenerationSnapshot (tags : List Units) (apart : Apart Value)
    (tidy : Tidy Value tag before) :
    wpE storeSpec (readTagGenerationSnapshot tags : CacheCalls D _) (fun result after =>
      Faded Value tag (fun _ => False) before after ∧ ∃ generations, result = .ok generations)
      before := by
  refine Program.wp_and
    (wpE_orderly (orderly_readTagGenerationSnapshot tags) apart tidy) ?_
  rw [readTagGenerationSnapshot]
  split
  · exact ⟨some [], rfl⟩
  · exact wpE_caught _ none before

theorem wpE_set (cacheNamespace key : Units) (value : Json) {ttl : Int} (positive : 0 < ttl)
    (tags : List Units) (expected : TagGenerationSnapshot) (apart : Apart Value)
    (tidy : Tidy Value tag before)
    (belongs : Value (TaggedCacheService.buildKey cacheNamespace key)) :
    wpE storeSpec (TaggedCacheService.set cacheNamespace key value ttl tags expected :
        CacheCalls D Unit) (fun result after =>
      Leaves Value tag (fun k text => k = TaggedCacheService.buildKey cacheNamespace key ∧
        text = stringify value) (fun _ => False) before after ∧
      ∃ u, result = .ok u) before :=
  Program.wp_and (wpE_orderly (onlyE_set .get (.set belongs positive ⟨rfl, rfl⟩) .sadd .expire
    tags expected) apart tidy) (wpE_caught _ () before)

/-- A value that is stored elsewhere. -/
theorem wpE_set_elsewhere (cacheNamespace key : Units) (value : Json) (ttl : Int)
    (tags : List Units) (expected : TagGenerationSnapshot) (apart : Apart Value)
    (tidy : Tidy Value tag before)
    (plain : ¬ Value (TaggedCacheService.buildKey cacheNamespace key))
    (index : TaggedCacheService.buildKey cacheNamespace key ≠ tagIndexKey tag)
    (generation : TaggedCacheService.buildKey cacheNamespace key ≠ tagGenerationKey tag) :
    wpE storeSpec (TaggedCacheService.set cacheNamespace key value ttl tags expected :
        CacheCalls D Unit) (fun _ after => Faded Value tag (fun _ => False) before after) before :=
  wpE_keeps (onlyE_set (fun key => (Orderly.get key).keeps apart)
    (keeps_elsewhere plain index generation) (fun tag member => (Orderly.sadd tag member).keeps apart)
    (fun tag seconds => (Orderly.expire tag seconds).keeps apart) tags expected) tidy

/-- A sweep throws nothing. -/
theorem wpE_sweepTags (tags : List Units) (state : StoreState) :
    wpE storeSpec (sweepTags tags : CacheCalls D Unit) (fun result _ => ∃ u, result = .ok u)
      state := by
  induction tags generalizing state with
  | nil => exact ⟨(), rfl⟩
  | cons tag rest ih =>
    rw [sweepTags, List.forM_cons, wpE_bind]
    refine wpE_mono (Program.execSpec_monotone _ _) ?_ (wpE_caught (sweepTag tag) () state)
    rintro _ after ⟨u, rfl⟩
    exact ih after

theorem wpE_invalidateTags (tags : List Units) (apart : Apart Value)
    (tidy : Tidy Value tag before) :
    wpE storeSpec (TaggedCacheService.invalidateTags tags : CacheCalls D Unit)
      (fun result after => Faded Value tag (fun _ => False) before after ∧ ∃ u, result = .ok u)
      before :=
  Program.wp_and (wpE_orderly (orderly_sweepTags tags) apart tidy) (wpE_sweepTags tags before)

/-- Whatever becomes of the rest, the key is dropped. -/
theorem wpE_dropsKey (cacheNamespace key : Units) (tags : List Units) (apart : Apart Value)
    (tidy : Tidy Value tag before) :
    wpE storeSpec (TaggedCacheService.invalidateKey cacheNamespace key tags : CacheCalls D Unit)
      (fun _ after => Faded Value tag (· = TaggedCacheService.buildKey cacheNamespace key)
        before after) before := by
  refine wpE_send fun elapsed => ⟨(), rfl, ?_⟩
  have drops : Faded Value tag (· = TaggedCacheService.buildKey cacheNamespace key) before
      (before.sent elapsed (.del (TaggedCacheService.buildKey cacheNamespace key))) :=
    leaves_del tidy elapsed _
  have unlists : OnlyE (Keeps Value tag fun _ _ => False) (forM tags fun tag =>
      send (.srem (tagIndexKey tag) (TaggedCacheService.buildKey cacheNamespace key)) :
      CacheCalls D Unit) := by
    refine onlyE_forM (fun other => ?_) tags
    exact OnlyE.mk (p := send (.srem (tagIndexKey other) _))
      ⟨keeps_srem apart other _, fun _ => trivial⟩
  have raises : OnlyE (Keeps Value tag fun _ _ => False)
      (bumpTagGenerations tags : CacheCalls D Unit) :=
    onlyE_forM (fun other => (onlyE_send ((Orderly.incr other).keeps apart)).bind fun _ =>
      onlyE_pure _) tags
  have rest : OnlyE (Keeps Value tag fun _ _ => False) (do
      forM tags fun tag =>
        send (.srem (tagIndexKey tag) (TaggedCacheService.buildKey cacheNamespace key))
      if tags.length > 0 then bumpTagGenerations tags : CacheCalls D Unit) := by
    refine unlists.bind fun _ => ?_
    split
    · exact raises
    · exact onlyE_pure ()
  exact wpE_mono (Program.execSpec_monotone _ _)
    (fun _ _ faded => (drops.trans faded).weaken fun _ => Or.inl) (wpE_keeps rest drops.tidy)

/-- The key is dropped. -/
theorem wpE_invalidateKey (cacheNamespace key : Units) (apart : Apart Value)
    (tidy : Tidy Value tag before) :
    wpE storeSpec (TaggedCacheService.invalidateKey cacheNamespace key [tag] : CacheCalls D Unit)
      (fun result after => Faded Value tag (· = TaggedCacheService.buildKey cacheNamespace key)
        before after ∧ ∃ u, result = .ok u) before := by
  set cacheKey := TaggedCacheService.buildKey cacheNamespace key with built
  refine wpE_send fun first => ⟨(), rfl, ?_⟩
  have drops : Faded Value tag (· = cacheKey) before (before.sent first (.del cacheKey)) :=
    leaves_del tidy first cacheKey
  refine Eq.mpr (wpE_bind ..) (wpE_send fun second => ?_)
  obtain ⟨removed, unlists⟩ : _ ∧ Faded Value tag (fun _ => False) _ _ :=
    leaves_srem drops.tidy second cacheKey (apart.index tag)
  refine ⟨(), removed, Eq.mpr (wpE_bind ..) (wpE_send fun third => ?_)⟩
  obtain ⟨⟨n, raised⟩, raises⟩ : _ ∧ Faded Value tag (fun _ => False) _ _ :=
    leaves_incr unlists.tidy third (apart.generation tag)
  exact ⟨n, raised, (drops.trans (unlists.trans raises)).weaken fun _ => Or.inl, (), rfl⟩

end Methods
end Caching
