import Hakawi.Caching.KeptStore
import Hakawi.Caching.TagProtocol

/-!
# What keeps a cached value fresh

The entry under one key, whose reads all carry the same tags. It is in the index of each
of its tags or a read is about to list it there, and where it is not the value aimed at,
a sweep is still to come that will find it. What can break this is a sweep of a tag
while a read has compared the tag's generation and not yet indexed its key.
-/

namespace Caching
open Html Common Effects

namespace Memory
variable {D : Type}

/-- The tags whose generation a read has compared and under which it may still have to
index its key. -/
def window : Memory D → List Units
  | reader read (.checking _ _ after) => read.tags.take after.length
  | reader read (.indexing indexed _) => read.tags.drop indexed
  | _ => []

/-- The tag whose index has been read and whose generation is not yet raised. -/
def sweeping : Memory D → Option Units
  | writer _ _ (some (tag, _)) => some tag
  | _ => none

/-- The read has stored the value and not yet indexed its key under the tag. -/
def stores (key tag : Units) : Memory D → Prop
  | reader read (.indexing indexed _) => read.key = key ∧ tag ∈ read.tags.drop indexed
  | _ => False

def willSweep (tags : List Units) : Memory D → Prop
  | writer _ todo _ => ∃ tag ∈ todo, tag ∈ tags
  | _ => False

def willDelete (key : Units) : Memory D → Prop
  | writer _ _ (some (_, some keys)) => key ∈ keys
  | _ => False

def sweeps (tags : List Units) (g : Memory D) : Prop := ∃ tag ∈ g.sweeping, tag ∈ tags

/-- A sweep to come, or the one under way, deletes the key. -/
def willClear (key : Units) (tags : List Units) (g : Memory D) : Prop :=
  g.willSweep tags ∨ g.willDelete key

end Memory

/-- No tag is swept while a read compares its generation or indexes its key under it. -/
def Calm {D : Type} (memory : List (Memory D)) : Prop :=
  ∀ r ∈ memory, ∀ tag ∈ r.window, ∀ w ∈ memory, w.sweeping ≠ some tag

instance {D : Type} : DecidablePred (Calm (D := D)) := fun memory =>
  inferInstanceAs (Decidable (∀ r ∈ memory, ∀ tag ∈ r.window, ∀ w ∈ memory, w.sweeping ≠ some tag))

section Invariant
variable {D : Type} (key : Units) (tags : List Units) (render goal : D → Json)

/-- The reads of the key are alike, and what they store does not outlive the indexes. -/
structure Proper (store : Valkey Units) (read : Read D) : Prop where
  plain : Plain read.key
  textual : Textual store read.key
  positive : 0 < read.ttl
  within : read.ttl ≤ TAG_INDEX_TTL_SECONDS
  same : read.key = key → read.tags = tags ∧ read.render = render

def Learned (store : Valkey Units) (tags : List Units) : Phase D → Prop
  | .reading generations => Taken store tags generations
  | .checking before _ after => Taken store tags before ∧ before.length = tags.length ∧
    Exact store tags after
  | _ => True

def Sound (store : Valkey Units) : Memory D → Prop
  | .reader read phase => Proper key tags render store read ∧ Learned store read.tags phase
  | .writer _ _ (some (_, some keys)) => ∀ key ∈ keys, Plain key
  | .writer _ _ _ => True
  | .broken => False

/-- The index names the key, for as long as the entry stands. -/
def Lists (store : Valkey Units) (tag : Units) (entry : Entry Units) : Prop :=
  ∃ keys time, store.entries (tagIndexKey tag) = some ⟨.members keys, time⟩ ∧ key ∈ keys ∧
    ∀ late ∈ time, ∀ time ∈ entry.expiresAt, time ≤ late

/-- The entry under the key while it stands. -/
structure Standing (world : CacheWorld D) (memory : List (Memory D)) (entry : Entry Units) :
    Prop where
  timely : ∃ time ∈ entry.expiresAt, time ≤ world.clock + TAG_INDEX_TTL_SECONDS * 1000
  listed : ∀ tag ∈ tags, (∃ g ∈ memory, g.stores key tag) ∨ Lists key world.store tag entry
  found : ∀ g ∈ memory, g.sweeps tags → g.willDelete key
  current : entry.content = .text (stringify (goal world.database)) ∨
    ∃ g ∈ memory, g.willClear key tags

/-- What a read has loaded is what to store, or a sweep keeps it from being stored. -/
def Justified (world : CacheWorld D) (memory : List (Memory D)) (before : List Text) (value : D) :
    Prop :=
  render value = goal world.database ∨ (∃ g ∈ memory, g.willSweep tags ∨ g.sweeps tags) ∨
    Moved world.store tags before

structure Fresh (world : CacheWorld D) (memory : List (Memory D)) : Prop where
  kept : WellKept world.store
  sound : ∀ g ∈ memory, Sound key tags render world.store g
  standing : ∀ entry, world.store.live world.clock key = some entry →
    Standing key tags goal world memory entry
  justified : ∀ read before value after, .reader read (.checking before value after) ∈ memory →
    read.key = key → Justified tags render goal world memory before value

end Invariant

/-!
## The calls that keep a cached value fresh

Each call first changes the store or the database and then what its thread remembers.
Both changes are followed one after the other, so that each lemma is about one of them.
-/

variable {D : Type} {key : Units} {tags : List Units} {render goal : D → Json}
variable {world : CacheWorld D} {memory : List (Memory D)} {store store' : Valkey Units}
variable {clock : Int} {tag : Units} {entry : Entry Units}

theorem Taken.frame {generations : List Text} (taken : Taken store tags generations)
    (grows : ∀ tag, generation store tag ≤ generation store' tag) :
    Taken store' tags generations := by
  intro p member
  obtain ⟨n, below, same⟩ := taken p member
  exact ⟨n, below.trans (grows p.1), same⟩

theorem Moved.frame {generations : List Text} (moved : Moved store tags generations)
    (grows : ∀ tag, generation store tag ≤ generation store' tag) :
    Moved store' tags generations := by
  obtain ⟨p, member, n, below, same⟩ := moved
  exact ⟨p, member, n, below.trans_le (grows p.1), same⟩

/-- Generations may grow, but not while they are compared. -/
theorem Sound.frame {g : Memory D} (sound : Sound key tags render store g)
    (grows : ∀ tag, generation store tag ≤ generation store' tag)
    (still : ∀ tag ∈ g.window, generation store' tag = generation store tag)
    (texts : ∀ k, Plain k → Textual store k → Textual store' k) :
    Sound key tags render store' g := by
  cases g with
  | broken => exact sound
  | writer changed todo current => rcases current with _ | ⟨tag, _ | keys⟩ <;> exact sound
  | reader read phase =>
    obtain ⟨proper, learned⟩ := sound
    refine ⟨{ proper with textual := texts _ proper.plain proper.textual }, ?_⟩
    cases phase with
    | start => trivial
    | indexing indexed listed => trivial
    | reading generations => exact learned.frame grows
    | checking before value after =>
      obtain ⟨taken, length, exact'⟩ := learned
      refine ⟨taken.frame grows, length, fun p member => ?_⟩
      rw [still p.1 (fst_mem_take member)]
      exact exact' p member

theorem Fresh.change_store (fresh : Fresh key tags render goal world memory)
    (kept : WellKept store') (grows : ∀ tag, generation world.store tag ≤ generation store' tag)
    (still : ∀ g ∈ memory, ∀ tag ∈ g.window, generation store' tag = generation world.store tag)
    (texts : ∀ k, Plain k → Textual world.store k → Textual store' k)
    (standing : ∀ entry, store'.live clock key = some entry →
      Standing key tags goal ⟨clock, store', world.database⟩ memory entry) :
    Fresh key tags render goal ⟨clock, store', world.database⟩ memory := by
  refine ⟨kept, fun g member => (fresh.sound g member).frame grows (still g member) texts,
    standing, fun read before value after member same => ?_⟩
  rcases fresh.justified read before value after member same with equal | clears | moved
  · exact Or.inl equal
  · exact Or.inr (Or.inl clears)
  · exact Or.inr (Or.inr (moved.frame grows))

theorem Standing.frame (standing : Standing key tags goal world memory entry)
    (later : world.clock ≤ clock)
    (lists : ∀ tag ∈ tags, Lists key world.store tag entry → Lists key store' tag entry) :
    Standing key tags goal ⟨clock, store', world.database⟩ memory entry := by
  obtain ⟨time, expires, within⟩ := standing.timely
  refine ⟨⟨time, expires, within.trans (by simpa using later)⟩, fun tag member => ?_,
    standing.found, standing.current⟩
  rcases standing.listed tag member with stored | listed
  · exact Or.inl stored
  · exact Or.inr (lists tag member listed)

/-- What stands now stood before. -/
theorem live_of_later (later : world.clock ≤ clock)
    (same : store'.entries key = world.store.entries key)
    (alive : store'.live clock key = some entry) :
    world.store.live world.clock key = some entry := by
  obtain ⟨stands, early⟩ := Valkey.live_eq_some.mp alive
  rw [same] at stands
  exact Valkey.live_eq_some.mpr ⟨stands, fun time expires => later.trans_lt (early time expires)⟩

/-- The index of a tag outlives the entry. -/
theorem Lists.live {now : Int} (lists : Lists key store tag entry)
    (timely : ∃ time ∈ entry.expiresAt, now < time) :
    ∃ keys time, store.live now (tagIndexKey tag) = some ⟨.members keys, time⟩ ∧ key ∈ keys ∧
      ∀ late ∈ time, ∀ time ∈ entry.expiresAt, time ≤ late := by
  obtain ⟨keys, time, stands, member, outlives⟩ := lists
  obtain ⟨limit, expires, alive⟩ := timely
  refine ⟨keys, time, Valkey.live_eq_some.mpr ⟨stands, fun late bound => ?_⟩, member, outlives⟩
  exact alive.trans_le (outlives late bound limit expires)

section Keys
variable (fresh : Fresh key tags render goal world memory) (later : world.clock ≤ clock)
include fresh later

theorem Fresh.wait : Fresh key tags render goal ⟨clock, world.store, world.database⟩ memory := by
  refine fresh.change_store fresh.kept (fun _ => le_refl _) (fun _ _ _ _ => rfl)
    (fun _ _ textual => textual) fun entry alive => ?_
  exact (fresh.standing entry (live_of_later later rfl alive)).frame later fun _ _ lists => lists

/-- Texts change under another key than those of the tags. -/
theorem Fresh.put_plain {k : Units} (plain : Plain k) (new : Option (Entry Units))
    (textual : ∀ e ∈ new, ∃ text, e.content = .text text)
    (standing : k = key → ∀ entry ∈ new, (∀ time ∈ entry.expiresAt, clock < time) →
      Standing key tags goal ⟨clock, world.store.put k new, world.database⟩ memory entry) :
    Fresh key tags render goal ⟨clock, world.store.put k new, world.database⟩ memory := by
  have counters (tag : Units) : (world.store.put k new).entries (tagGenerationKey tag) =
      world.store.entries (tagGenerationKey tag) := Valkey.put_entries_ne (plain tag).2.symm _
  have indexes (tag : Units) : (world.store.put k new).entries (tagIndexKey tag) =
      world.store.entries (tagIndexKey tag) := Valkey.put_entries_ne (plain tag).1.symm _
  refine fresh.change_store (fresh.kept.put_plain plain new)
    (fun tag => (generation_congr (counters tag)).ge)
    (fun _ _ tag _ => generation_congr (counters tag)) ?_ fun entry alive => ?_
  · intro k' _ textual' e stands
    by_cases same : k' = k
    · rw [same, Valkey.put_entries_self] at stands
      exact textual e stands
    · rw [Valkey.put_entries_ne same] at stands
      exact textual' e stands
  · by_cases same : k = key
    · obtain ⟨stands, early⟩ := Valkey.live_eq_some.mp alive
      rw [same, Valkey.put_entries_self] at stands
      exact standing same entry stands early
    · have before := fresh.standing entry
        (live_of_later later (Valkey.put_entries_ne (Ne.symm same) _) alive)
      refine before.frame later fun tag _ lists => ?_
      rw [Lists, indexes]
      exact lists

/-- An index changes, and goes on naming the key while its entry stands. -/
theorem Fresh.put_index (plain : Plain key) (new : Option (Entry Units))
    (index : ∀ e ∈ new, ∃ keys time, e = ⟨.members keys, time⟩ ∧ ∀ k ∈ keys, Plain k)
    (lists : tag ∈ tags → ∀ entry, Standing key tags goal world memory entry →
      (∃ time ∈ entry.expiresAt, clock < time) → Lists key world.store tag entry →
      Lists key (world.store.put (tagIndexKey tag) new) tag entry) :
    Fresh key tags render goal ⟨clock, world.store.put (tagIndexKey tag) new, world.database⟩
      memory := by
  have counters (tag' : Units) : (world.store.put (tagIndexKey tag) new).entries
      (tagGenerationKey tag') = world.store.entries (tagGenerationKey tag') :=
    Valkey.put_entries_ne (tagIndexKey_ne_tagGenerationKey tag tag').symm _
  refine fresh.change_store (fresh.kept.put_index index)
    (fun tag' => (generation_congr (counters tag')).ge)
    (fun _ _ tag' _ => generation_congr (counters tag')) ?_ fun entry alive => ?_
  · intro k plain textual e stands
    rw [Valkey.put_entries_ne (plain tag).1] at stands
    exact textual e stands
  · have before := fresh.standing entry
      (live_of_later later (Valkey.put_entries_ne (plain tag).1 _) alive)
    refine before.frame later fun tag' member listed => ?_
    by_cases same : tag' = tag
    · subst same
      obtain ⟨time, expires, -⟩ := before.timely
      exact lists member entry before
        ⟨time, expires, (Valkey.live_eq_some.mp alive).2 time expires⟩ listed
    · rw [Lists, Valkey.put_entries_ne fun equal => same (tagIndexKey_injective equal)]
      exact listed

/-- A sweep raises the generation of its tag once nothing is compared with it. -/
theorem Fresh.incr (tag : Units) (plain : Plain key)
    (unread : ∀ g ∈ memory, tag ∉ g.window) :
    Fresh key tags render goal ⟨clock, world.store.put (tagGenerationKey tag)
      (some ⟨.text (.integer (generation world.store tag + 1)), none⟩), world.database⟩ memory := by
  refine fresh.change_store (fresh.kept.put_counter _) (fun tag' => ?_) ?_ ?_ fun entry alive => ?_
  · rw [generation_put_counter]
    split
    · rename_i same
      subst same
      omega
    · exact le_refl _
  · intro g member tag' inside
    rw [generation_put_counter, if_neg]
    rintro rfl
    exact unread g member inside
  · intro k plain textual e stands
    rw [Valkey.put_entries_ne (plain tag).2] at stands
    exact textual e stands
  · have before := fresh.standing entry
      (live_of_later later (Valkey.put_entries_ne (plain tag).2 _) alive)
    refine before.frame later fun tag' _ listed => ?_
    rw [Lists, Valkey.put_entries_ne (tagIndexKey_ne_tagGenerationKey tag' tag)]
    exact listed

/-- The database changes before the sweep that makes up for it, or to no effect. -/
theorem Fresh.change {change : D → D}
    (swept : (∃ g ∈ memory, g.willSweep tags) ∨ ∀ data, goal (change data) = goal data) :
    Fresh key tags render goal ⟨clock, world.store, change world.database⟩ memory := by
  obtain ⟨kept, sound, standing, justified⟩ := fresh.wait later
  refine ⟨kept, sound, fun entry alive => ?_, fun read before value after member same => ?_⟩
  · obtain ⟨timely, listed, found, current⟩ := standing entry alive
    refine ⟨timely, listed, found, ?_⟩
    rcases swept with ⟨g, member, sweeps⟩ | without
    · exact Or.inr ⟨g, member, Or.inl sweeps⟩
    · rwa [without]
  · rcases swept with ⟨g, member, sweeps⟩ | without
    · exact Or.inr (Or.inl ⟨g, member, Or.inl sweeps⟩)
    · rw [Justified, without]
      exact justified read before value after member same

end Keys

/-! What a thread remembers changes. -/

section Moves
variable {i : Nat} {g g' : Memory D}

theorem Justified.move {before : List Text} {value : D} (h : memory[i]? = some g)
    (justified : Justified tags render goal world memory before value)
    (still : g.willSweep tags ∨ g.sweeps tags →
      (g'.willSweep tags ∨ g'.sweeps tags) ∨ Moved world.store tags before) :
    Justified tags render goal world (memory.set i g') before value := by
  by_cases moved : Moved world.store tags before
  · exact Or.inr (Or.inr moved)
  · rcases justified with equal | clears | moved
    · exact Or.inl equal
    · refine Or.inr (Or.inl (Pool.exists_mem_set h g' clears fun does => ?_))
      exact (still does).resolve_right moved
    · exact Or.inr (Or.inr moved)

theorem Fresh.move (h : memory[i]? = some g) (fresh : Fresh key tags render goal world memory)
    (sound : Sound key tags render world.store g')
    (standing : ∀ entry, world.store.live world.clock key = some entry →
      Standing key tags goal world memory entry →
      (∀ tag ∈ tags, g.stores key tag → g'.stores key tag ∨ Lists key world.store tag entry) ∧
      (g'.sweeps tags → g'.willDelete key) ∧ (g.willClear key tags → g'.willClear key tags))
    (still : g.willSweep tags ∨ g.sweeps tags → (g'.willSweep tags ∨ g'.sweeps tags) ∨
      ∀ read before value after, .reader read (.checking before value after) ∈ memory →
        read.key = key → Moved world.store tags before)
    (justified : ∀ read before value after, g' = .reader read (.checking before value after) →
      read.key = key → Justified tags render goal world (memory.set i g') before value) :
    Fresh key tags render goal world (memory.set i g') := by
  refine ⟨fresh.kept, Pool.forall_mem_set fresh.sound sound, fun entry alive => ?_,
    fun read before value after member same => ?_⟩
  · have before := fresh.standing entry alive
    obtain ⟨stores, found, clears⟩ := standing entry alive before
    refine ⟨before.timely, fun tag member => ?_, Pool.forall_mem_set before.found found, ?_⟩
    · by_cases lists : Lists key world.store tag entry
      · exact Or.inr lists
      · have stored := (before.listed tag member).resolve_right lists
        exact Or.inl (Pool.exists_mem_set h g' stored fun does =>
          (stores tag member does).resolve_right lists)
    · exact before.current.imp_right fun clear => Pool.exists_mem_set h g' clear clears
  · rcases List.mem_or_eq_of_mem_set member with old | rfl
    · refine (fresh.justified read before value after old same).move h fun does => ?_
      exact (still does).imp_right fun moved => moved read before value after old same
    · exact justified read before value after rfl same

/-- A read moves on without storing or listing anything. -/
theorem Fresh.move_reader {read : Read D} {phase phase' : Phase D}
    (h : memory[i]? = some (.reader read phase))
    (fresh : Fresh key tags render goal world memory)
    (sound : Sound key tags render world.store (.reader read phase'))
    (lists : ∀ entry, world.store.live world.clock key = some entry →
      Standing key tags goal world memory entry → ∀ tag ∈ tags,
      (Memory.reader read phase).stores key tag →
        (Memory.reader read phase').stores key tag ∨ Lists key world.store tag entry)
    (justified : ∀ before value after, phase' = .checking before value after → read.key = key →
      Justified tags render goal world memory before value) :
    Fresh key tags render goal world (memory.set i (.reader read phase')) := by
  have idle (phase : Phase D) : ¬ ((Memory.reader read phase).willSweep tags ∨
      (Memory.reader read phase).sweeps tags) := by
    rintro (never | ⟨tag, never, -⟩) <;> cases never
  refine fresh.move h sound (fun entry alive before => ⟨lists entry alive before, ?_, ?_⟩)
    (fun does => absurd does (idle phase)) fun read' before value after same mine => ?_
  · exact fun does => absurd (Or.inr does) (idle phase')
  · rintro (never | never) <;> cases never
  · injection same with same_read same_phase
    subst same_read
    exact (justified before value after same_phase mine).move h
      fun does => absurd does (idle phase)

theorem Fresh.move_writer {changed changed' : Bool} {todo todo' : List Units}
    {current current' : Option (Units × Option (List Units))}
    (h : memory[i]? = some (.writer changed todo current))
    (fresh : Fresh key tags render goal world memory)
    (sound : Sound key tags render world.store (.writer changed' todo' current'))
    (found : ∀ entry, world.store.live world.clock key = some entry →
      Standing key tags goal world memory entry →
      (Memory.sweeps tags (.writer (D := D) changed' todo' current') →
        Memory.willDelete key (.writer (D := D) changed' todo' current')) ∧
      (Memory.willClear key tags (.writer (D := D) changed todo current) →
        Memory.willClear key tags (.writer (D := D) changed' todo' current')))
    (still : Memory.willSweep tags (.writer (D := D) changed todo current) ∨
        Memory.sweeps tags (.writer (D := D) changed todo current) →
      (Memory.willSweep tags (.writer (D := D) changed' todo' current') ∨
        Memory.sweeps tags (.writer (D := D) changed' todo' current')) ∨
      ∀ read before value after, .reader read (.checking before value after) ∈ memory →
        read.key = key → Moved world.store tags before) :
    Fresh key tags render goal world (memory.set i (.writer changed' todo' current')) :=
  fresh.move h sound (fun entry alive before => ⟨fun _ _ never => never.elim,
    found entry alive before⟩) still nofun

end Moves
end Caching
