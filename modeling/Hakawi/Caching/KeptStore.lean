import Hakawi.Caching.TagGeneration

/-!
# The keys of the tags in the store

Under a tag's two keys stand a set of other keys and a counter that only grows. What was
read of the counters is compared with what stands there now.
-/

namespace Caching
open Html Common

/-- Not a key of the tags themselves. -/
def Plain (key : Units) : Prop := ∀ tag, key ≠ tagIndexKey tag ∧ key ≠ tagGenerationKey tag

def Textual (store : Valkey Units) (key : Units) : Prop :=
  ∀ entry ∈ store.entries key, ∃ text, entry.content = .text text

/-- Under the keys of the tags stand counters that do not expire and sets of other keys. -/
structure WellKept (store : Valkey Units) : Prop where
  counter : ∀ tag, store.entries (tagGenerationKey tag) = none ∨
    ∃ n, store.entries (tagGenerationKey tag) = some ⟨.text (.integer n), none⟩
  index : ∀ tag, ∀ entry ∈ store.entries (tagIndexKey tag), ∃ keys time,
    entry = ⟨.members keys, time⟩ ∧ ∀ key ∈ keys, Plain key

def generation (store : Valkey Units) (tag : Units) : Int :=
  match store.entries (tagGenerationKey tag) with
  | some ⟨.text (.integer n), _⟩ => n
  | _ => 0

section Store
variable {store : Valkey Units} {now : Int} {tag tag' key : Units}

/-- A counter that is not there reads as one that was never raised. -/
theorem WellKept.get_generation (kept : WellKept store) (now : Int) (tag : Units) :
    ∃ answer, store.get now (tagGenerationKey tag) = .ok answer ∧
      answer.getD INITIAL_TAG_GENERATION = .integer (generation store tag) := by
  rcases kept.counter tag with absent | ⟨n, counter⟩
  · refine ⟨none, ?_, ?_⟩
    · simp [Valkey.get, Valkey.live, absent]
    · simp [generation, absent, INITIAL_TAG_GENERATION]
  · have alive : store.live now (tagGenerationKey tag) = some ⟨.text (.integer n), none⟩ :=
      Valkey.live_eq_some.mpr ⟨counter, by simp⟩
    refine ⟨some (.integer n), ?_, ?_⟩
    · rw [Valkey.get, alive]
    · simp [generation, counter]

theorem WellKept.smembers (kept : WellKept store) (now : Int) (tag : Units) :
    ∃ keys, store.smembers now (tagIndexKey tag) = .ok keys ∧ (∀ key ∈ keys, Plain key) ∧
      ∀ listed time, store.live now (tagIndexKey tag) = some ⟨.members listed, time⟩ →
        keys = listed := by
  cases found : store.live now (tagIndexKey tag) with
  | none =>
    refine ⟨[], ?_, (by simp), by simp⟩
    rw [Valkey.smembers, found]
  | some entry =>
    obtain ⟨keys, time, rfl, plain⟩ := kept.index tag entry (Valkey.live_eq_some.mp found).1
    refine ⟨keys, ?_, plain, fun listed time same => ?_⟩
    · rw [Valkey.smembers, found]
    · injection Option.some.inj same with content
      injection content

/-- The index names the key afterwards, with the time that it had. -/
theorem WellKept.sadd (kept : WellKept store) (now : Int) (tag member : Units) :
    ∃ keys time, store.sadd now (tagIndexKey tag) member =
        .ok (store.put (tagIndexKey tag) (some ⟨.members keys, time⟩)) ∧
      ((∃ listed, store.live now (tagIndexKey tag) = some ⟨.members listed, time⟩ ∧
        ∀ k, k ∈ keys ↔ k ∈ listed ∨ k = member) ∨
        store.live now (tagIndexKey tag) = none ∧ keys = [member] ∧ time = none) := by
  cases found : store.live now (tagIndexKey tag) with
  | none =>
    refine ⟨[member], none, ?_, Or.inr ⟨rfl, rfl, rfl⟩⟩
    rw [Valkey.sadd, found]
  | some entry =>
    obtain ⟨listed, time, rfl, -⟩ := kept.index tag entry (Valkey.live_eq_some.mp found).1
    by_cases there : member ∈ listed
    · refine ⟨listed, time, by simp [Valkey.sadd, found, there], Or.inl ⟨listed, rfl, fun k => ?_⟩⟩
      constructor
      · exact Or.inl
      · rintro (old | rfl)
        · exact old
        · exact there
    · refine ⟨listed ++ [member], time, by simp [Valkey.sadd, found, there],
        Or.inl ⟨listed, rfl, fun k => ?_⟩⟩
      simp

theorem Textual.get (textual : Textual store key) (now : Int) :
    ∃ answer, store.get now key = .ok answer := by
  cases found : store.live now key with
  | none => exact ⟨none, by rw [Valkey.get, found]⟩
  | some entry =>
    obtain ⟨content, time⟩ := entry
    obtain ⟨text, rfl⟩ := textual _ (Valkey.live_eq_some.mp found).1
    exact ⟨some text, by rw [Valkey.get, found]⟩

/-- What stands under other keys than those of the tags does not matter. -/
theorem WellKept.frame {store' : Valkey Units} (kept : WellKept store)
    (counters : ∀ tag, store'.entries (tagGenerationKey tag) =
      store.entries (tagGenerationKey tag))
    (indexes : ∀ tag, store'.entries (tagIndexKey tag) = store.entries (tagIndexKey tag)) :
    WellKept store' := by
  constructor
  · intro tag
    rw [counters]
    exact kept.counter tag
  · intro tag
    rw [indexes]
    exact kept.index tag

theorem WellKept.put_index (kept : WellKept store) {entry : Option (Entry Units)}
    (sound : ∀ e ∈ entry, ∃ keys time, e = ⟨.members keys, time⟩ ∧ ∀ key ∈ keys, Plain key) :
    WellKept (store.put (tagIndexKey tag) entry) := by
  constructor
  · intro tag'
    rw [Valkey.put_entries_ne (tagIndexKey_ne_tagGenerationKey tag tag').symm]
    exact kept.counter tag'
  · intro tag'
    by_cases same : tag' = tag
    · rw [same, Valkey.put_entries_self]
      exact sound
    · rw [Valkey.put_entries_ne fun equal => same (tagIndexKey_injective equal)]
      exact kept.index tag'

theorem WellKept.put_plain (kept : WellKept store) (plain : Plain key)
    (entry : Option (Entry Units)) : WellKept (store.put key entry) :=
  kept.frame (fun tag => Valkey.put_entries_ne (plain tag).2.symm _)
    fun tag => Valkey.put_entries_ne (plain tag).1.symm _

theorem WellKept.put_counter (kept : WellKept store) (n : Int) :
    WellKept (store.put (tagGenerationKey tag) (some ⟨.text (.integer n), none⟩)) := by
  constructor
  · intro tag'
    by_cases same : tag' = tag
    · rw [same, Valkey.put_entries_self]
      exact Or.inr ⟨n, rfl⟩
    · rw [Valkey.put_entries_ne fun equal => same (tagGenerationKey_injective equal)]
      exact kept.counter tag'
  · intro tag'
    rw [Valkey.put_entries_ne (tagIndexKey_ne_tagGenerationKey tag' tag)]
    exact kept.index tag'

/-- An invalidation raises its tag's generation by one. -/
theorem WellKept.incr (kept : WellKept store) (now : Int) (tag : Units) :
    store.incr now (tagGenerationKey tag) = .ok (generation store tag + 1,
      store.put (tagGenerationKey tag) (some ⟨.text (.integer (generation store tag + 1)), none⟩)) := by
  rcases kept.counter tag with absent | ⟨n, counter⟩
  · simp [Valkey.incr, Valkey.live, generation, absent]
  · have alive : store.live now (tagGenerationKey tag) = some ⟨.text (.integer n), none⟩ :=
      Valkey.live_eq_some.mpr ⟨counter, by simp⟩
    rw [Valkey.incr, alive, generation, counter]

theorem generation_put_counter (n : Int) (tag' : Units) :
    generation (store.put (tagGenerationKey tag) (some ⟨.text (.integer n), none⟩)) tag' =
      if tag' = tag then n else generation store tag' := by
  by_cases same : tag' = tag
  · rw [if_pos same, same, generation, Valkey.put_entries_self]
  · rw [if_neg same, generation, generation,
      Valkey.put_entries_ne fun equal => same (tagGenerationKey_injective equal)]

theorem generation_congr {store' : Valkey Units} (same : store'.entries (tagGenerationKey tag) =
    store.entries (tagGenerationKey tag)) : generation store' tag = generation store tag := by
  rw [generation, generation, same]

/-- What the methods send: indexes and generations are only handled as such. -/
inductive Tame : Command Units → Prop where
  | get (key : Units) : Tame (.get key)
  | smembers (key : Units) : Tame (.smembers key)
  | set {key : Units} (plain : Plain key) (value : Text) (ttl : Option Int) :
      Tame (.set key value ttl)
  | del {key : Units} (plain : Plain key) : Tame (.del key)
  | delIndex (tag : Units) : Tame (.del (tagIndexKey tag))
  | sadd (tag : Units) {member : Units} (plain : Plain member) : Tame (.sadd (tagIndexKey tag) member)
  | srem (tag member : Units) : Tame (.srem (tagIndexKey tag) member)
  | expire (tag : Units) (seconds : Int) : Tame (.expire (tagIndexKey tag) seconds)
  | incr (tag : Units) : Tame (.incr (tagGenerationKey tag))

theorem WellKept.of_live {entry : Entry Units} (kept : WellKept store)
    (alive : store.live now (tagIndexKey tag) = some entry) : ∃ keys time,
      entry = ⟨.members keys, time⟩ ∧ ∀ key ∈ keys, Plain key :=
  kept.index tag entry (Valkey.live_eq_some.mp alive).1

theorem WellKept.exec {command : Command Units} (kept : WellKept store) (now : Int)
    (tame : Tame command) : WellKept (store.exec now command).2 := by
  cases tame with
  | get key => exact kept
  | smembers key => exact kept
  | set plain value ttl =>
    cases ttl with
    | none => exact kept.put_plain plain _
    | some seconds =>
      simp only [Valkey.exec, Valkey.set]
      split
      · exact kept.put_plain plain _
      · split
        · exact kept
        · exact kept.put_plain plain _
  | del plain => exact kept.put_plain plain none
  | delIndex tag => exact kept.put_index (by simp)
  | @sadd tag member plain =>
    obtain ⟨keys, time, added, listed⟩ := kept.sadd now tag member
    rw [Valkey.exec, added]
    refine kept.put_index fun e here => ⟨keys, time, (Option.some.inj here).symm, ?_⟩
    rcases listed with ⟨before, alive, members⟩ | ⟨-, rfl, -⟩
    · intro key member
      rcases (members key).mp member with old | rfl
      · obtain ⟨_, _, ⟨⟩, plain'⟩ := kept.of_live alive
        exact plain' key old
      · exact plain
    · rintro key one
      cases List.mem_singleton.mp one
      exact plain
  | srem tag member =>
    cases alive : store.live now (tagIndexKey tag) with
    | none =>
      rw [Valkey.exec, Valkey.srem, alive]
      exact kept
    | some entry =>
      obtain ⟨keys, time, rfl, plain⟩ := kept.of_live alive
      rw [Valkey.exec, Valkey.srem, alive]
      refine kept.put_index fun e here => ?_
      simp only [Option.mem_def, Option.ite_none_left_eq_some, Option.some.injEq] at here
      obtain ⟨-, rfl⟩ := here
      exact ⟨_, time, rfl, fun key left => plain key (List.mem_filter.mp left).1⟩
  | expire tag seconds =>
    cases alive : store.live now (tagIndexKey tag) with
    | none =>
      rw [Valkey.exec, Valkey.expire, alive]
      exact kept
    | some entry =>
      obtain ⟨keys, time, rfl, plain⟩ := kept.of_live alive
      rw [Valkey.exec, Valkey.expire, alive]
      exact kept.put_index fun e here => ⟨keys, _, (Option.some.inj here).symm, plain⟩
  | incr tag =>
    rw [Valkey.exec, kept.incr]
    exact kept.put_counter _

/-- No command that is sent lowers a generation. -/
theorem WellKept.generation_le_exec {command : Command Units} (kept : WellKept store) (now : Int)
    (tame : Tame command) (tag : Units) :
    generation store tag ≤ generation (store.exec now command).2 tag := by
  have elsewhere (different : tagGenerationKey tag ≠ command.key) :
      generation store tag ≤ generation (store.exec now command).2 tag :=
    (generation_congr (Valkey.exec_frame command different)).ge
  cases tame with
  | get key => exact le_refl _
  | smembers key => exact le_refl _
  | set plain value ttl => exact elsewhere (plain tag).2.symm
  | del plain => exact elsewhere (plain tag).2.symm
  | delIndex tag' => exact elsewhere (tagIndexKey_ne_tagGenerationKey tag' tag).symm
  | sadd tag' plain => exact elsewhere (tagIndexKey_ne_tagGenerationKey tag' tag).symm
  | srem tag' member => exact elsewhere (tagIndexKey_ne_tagGenerationKey tag' tag).symm
  | expire tag' seconds => exact elsewhere (tagIndexKey_ne_tagGenerationKey tag' tag).symm
  | incr tag' =>
    rw [Valkey.exec, kept.incr]
    change _ ≤ generation (store.put _ _) tag
    rw [generation_put_counter]
    split
    · rename_i same
      rw [same]
      omega
    · exact le_refl _

end Store

section Snapshots
variable (store : Valkey Units) (tags : List Units)

/-- Each text was a tag's generation at some time. -/
def Taken (generations : List Text) : Prop :=
  ∀ p ∈ tags.zip generations, ∃ n ≤ generation store p.1, p.2 = .integer n

def Exact (generations : List Text) : Prop :=
  ∀ p ∈ tags.zip generations, p.2 = .integer (generation store p.1)

/-- A tag was swept after its generation was read. -/
def Moved (generations : List Text) : Prop :=
  ∃ p ∈ tags.zip generations, ∃ n < generation store p.1, p.2 = .integer n

variable {store tags} {generations : List Text} {tag : Units} {rest : List Units} {text : Text}

theorem zip_append_next (now : tags.drop generations.length = tag :: rest) :
    tags.zip (generations ++ [text]) = tags.zip generations ++ [(tag, text)] := by
  have room : generations.length ≤ tags.length := by
    by_contra beyond
    rw [List.drop_eq_nil_of_le (by omega)] at now
    cases now
  obtain ⟨read, split, length⟩ : ∃ read, tags = read ++ tag :: rest ∧
      read.length = generations.length :=
    ⟨_, by rw [← now, List.take_append_drop], List.length_take_of_le room⟩
  have old : (read ++ tag :: rest).zip (generations ++ []) = read.zip generations ++ [] :=
    List.zip_append length
  have new : (read ++ tag :: rest).zip (generations ++ [text]) =
      read.zip generations ++ [(tag, text)] := by
    rw [List.zip_append length, List.zip_cons_cons, List.zip_nil_right]
  rw [List.append_nil, List.append_nil] at old
  rw [split, new, old]

theorem Taken.next (taken : Taken store tags generations)
    (now : tags.drop generations.length = tag :: rest) :
    Taken store tags (generations ++ [.integer (generation store tag)]) := by
  intro p member
  rw [zip_append_next now] at member
  rcases List.mem_append.mp member with old | new
  · exact taken p old
  · obtain rfl := List.mem_singleton.mp new
    exact ⟨_, le_refl _, rfl⟩

theorem Exact.next (exact' : Exact store tags generations)
    (now : tags.drop generations.length = tag :: rest) :
    Exact store tags (generations ++ [.integer (generation store tag)]) := by
  intro p member
  rw [zip_append_next now] at member
  rcases List.mem_append.mp member with old | new
  · exact exact' p old
  · obtain rfl := List.mem_singleton.mp new
    rfl

/-- Reading the same generations again shows that none has moved. -/
theorem not_moved_of_unchanged {before after : List Text} (exact' : Exact store tags after)
    (complete : after.length = tags.length)
    (unchanged : tagGenerationsChanged before after = false) : ¬ Moved store tags before := by
  rintro ⟨p, member, n, below, same⟩
  rw [tagGenerationsChanged, Bool.or_eq_false_iff, bne_eq_false_iff_eq, List.any_eq_false]
    at unchanged
  obtain ⟨lengths, equal⟩ := unchanged
  obtain ⟨i, hi, rfl⟩ := List.getElem_of_mem member
  rw [List.length_zip] at hi
  rw [List.getElem_zip] at same below
  have hb : i < before.length := by omega
  have ha : i < after.length := by omega
  have now : after[i] = .integer (generation store tags[i]) :=
    exact' (tags[i], after[i]) (List.mem_iff_getElem.mpr
      ⟨i, by rw [List.length_zip]; omega, List.getElem_zip⟩)
  have pair : (before[i], after[i]) ∈ before.zip after :=
    List.mem_iff_getElem.mpr ⟨i, by rw [List.length_zip]; omega, List.getElem_zip⟩
  have still := equal _ pair
  simp only [now, show before[i] = .integer n from same] at still
  refine still ?_
  simpa [bne, BEq.beq, instBEqText.beq] using below.ne

theorem fst_mem_take {p : Units × Text} (member : p ∈ tags.zip generations) :
    p.1 ∈ tags.take generations.length := by
  obtain ⟨i, hi, rfl⟩ := List.getElem_of_mem member
  rw [List.length_zip] at hi
  rw [List.getElem_zip]
  exact List.mem_take_iff_getElem.mpr ⟨i, by omega, rfl⟩

theorem exists_mem_zip (member : tag ∈ tags) (complete : generations.length = tags.length) :
    ∃ text, (tag, text) ∈ tags.zip generations := by
  obtain ⟨i, hi, rfl⟩ := List.getElem_of_mem member
  have there : i < generations.length := by omega
  refine ⟨generations[i], List.mem_iff_getElem.mpr ⟨i, ?_, List.getElem_zip⟩⟩
  rw [List.length_zip]
  omega

end Snapshots
end Caching
