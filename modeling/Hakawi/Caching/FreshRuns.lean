import Hakawi.Caching.Freshness

/-!
# Undisturbed runs keep a cached value fresh

One lemma for each call that the protocol allows, and the run that is made of them.
-/

namespace Caching
open Html Common Effects

variable {D : Type} {key : Units} {tags : List Units} {render goal : D → Json}
variable {world : CacheWorld D} {memory : List (Memory D)} {clock : Int} {i : Nat}

/-- The key is in the index whose time to live is raised. -/
def StillListed (store : Valkey Units) (now : Int) : Memory D → CacheCall D → Prop
  | .reader read _, .valkey (.expire index _) => match store.smembers now index with
    | .ok keys => read.key ∈ keys
    | .error _ => False
  | _, _ => True

instance (store : Valkey Units) (now : Int) (g : Memory D) (call : CacheCall D) :
    Decidable (StillListed store now g call) := by
  unfold StillListed
  split
  · split <;> infer_instance
  · infer_instance

theorem stillListed_live {store : Valkey Units} {now : Int} {read : Read D} {phase : Phase D}
    {index : Units} {seconds : Int}
    (listed : StillListed store now (.reader read phase) (.valkey (.expire index seconds))) :
    ∃ keys time, store.live now index = some ⟨.members keys, time⟩ ∧ read.key ∈ keys := by
  change match store.smembers now index with
    | .ok keys => read.key ∈ keys
    | .error _ => False at listed
  unfold Valkey.smembers at listed
  split at listed
  · rename_i keys answered
    split at answered
    · cases answered
      cases listed
    · rename_i found
      cases answered
      exact ⟨_, _, found, listed⟩
    · cases answered
  · cases listed

section Readers
variable {read : Read D} (fresh : Fresh key tags render goal world memory)
variable (later : world.clock ≤ clock)
include fresh later

theorem Fresh.look_up (h : memory[i]? = some (.reader read .start)) :
    Fresh key tags render goal ⟨clock, world.store, world.database⟩
      (memory.set i (.reader read (.reading []))) := by
  obtain ⟨proper, -⟩ := fresh.sound _ (List.mem_of_getElem? h)
  refine (fresh.wait later).move_reader h ⟨proper, ?_⟩ (fun _ _ _ _ _ never => never.elim) (by simp)
  intro p member
  rw [List.zip_nil_right] at member
  cases member

theorem Fresh.drop_corrupt (h : memory[i]? = some (.reader read (.reading []))) :
    Fresh key tags render goal ⟨clock, world.store.del read.key, world.database⟩
      (memory.set i (.reader read (.reading []))) := by
  obtain ⟨proper, -⟩ := fresh.sound _ (List.mem_of_getElem? h)
  have dropped := fresh.put_plain later proper.plain none (by simp) (by simp)
  rw [Pool.set_of_some h]
  exact dropped

variable {generations : List Text} {tag : Units} {rest : List Units}

theorem Fresh.snapshot (h : memory[i]? = some (.reader read (.reading generations)))
    (now : read.tags.drop generations.length = tag :: rest) :
    Fresh key tags render goal ⟨clock, world.store, world.database⟩ (memory.set i
      (.reader read (.reading (generations ++ [.integer (generation world.store tag)])))) := by
  obtain ⟨proper, taken⟩ := fresh.sound _ (List.mem_of_getElem? h)
  exact (fresh.wait later).move_reader h ⟨proper, taken.next now⟩
    (fun _ _ _ _ _ never => never.elim) (by simp)

theorem Fresh.load (h : memory[i]? = some (.reader read (.reading generations)))
    (complete : generations.length = read.tags.length)
    (justified : read.key = key →
      Justified tags render goal world memory generations world.database) :
    Fresh key tags render goal ⟨clock, world.store, world.database⟩
      (memory.set i (.reader read (.checking generations world.database []))) := by
  obtain ⟨proper, taken⟩ := fresh.sound _ (List.mem_of_getElem? h)
  refine (fresh.wait later).move_reader h ⟨proper, taken, complete, ?_⟩
    (fun _ _ _ _ _ never => never.elim) ?_
  · intro p member
    rw [List.zip_nil_right] at member
    cases member
  · intro before value after same mine
    cases same
    exact justified mine

variable {before after : List Text} {value : D}

theorem Fresh.compare (h : memory[i]? = some (.reader read (.checking before value after)))
    (now : read.tags.drop after.length = tag :: rest) :
    Fresh key tags render goal ⟨clock, world.store, world.database⟩ (memory.set i
      (.reader read (.checking before value (after ++ [.integer (generation world.store tag)])))) := by
  have member := List.mem_of_getElem? h
  obtain ⟨proper, taken, complete, exact'⟩ := fresh.sound _ member
  refine (fresh.wait later).move_reader h ⟨proper, taken, complete, exact'.next now⟩
    (fun _ _ _ _ _ never => never.elim) ?_
  intro _ _ _ same mine
  cases same
  exact fresh.justified read before value after member mine

theorem Fresh.put_value (h : memory[i]? = some (.reader read (.checking before value after)))
    (calm : Calm memory) (calm' : Calm (memory.set i (.reader read (.indexing 0 false))))
    (complete : after.length = read.tags.length)
    (unchanged : tagGenerationsChanged before after = false) :
    Fresh key tags render goal ⟨clock, world.store.put read.key
        (some ⟨.text (stringify (read.render value)), some (clock + read.ttl * 1000)⟩),
      world.database⟩ (memory.set i (.reader read (.indexing 0 false))) := by
  have member := List.mem_of_getElem? h
  obtain ⟨proper, -, -, exact'⟩ := fresh.sound _ member
  have moved : Fresh key tags render goal world
      (memory.set i (.reader read (.indexing 0 false))) :=
    fresh.move_reader h ⟨proper, trivial⟩ (fun _ _ _ _ _ never => never.elim) (by simp)
  have inside : .reader read (.indexing 0 false) ∈
      memory.set i (.reader read (.indexing 0 false)) :=
    List.mem_set (List.getElem?_eq_some_iff.mp h).1 _
  refine moved.put_plain later proper.plain _ ?_ ?_
  · rintro e ⟨⟩
    exact ⟨_, rfl⟩
  rintro rfl entry ⟨⟩ -
  obtain ⟨rfl, rfl⟩ := proper.same rfl
  refine ⟨⟨_, rfl, ?_⟩, fun tag belongs => ?_, fun g other sweeps => ?_, ?_⟩
  · have within := proper.within
    simp only
    omega
  · exact Or.inl ⟨_, inside, rfl, belongs⟩
  · obtain ⟨tag, sweeping, belongs⟩ := sweeps
    exact absurd sweeping (calm' _ inside tag belongs g other)
  · rcases fresh.justified read before value after member rfl with equal | clears | outdated
    · exact Or.inl (by rw [equal])
    · obtain ⟨w, there, willSweep | ⟨tag, sweeping, belongs⟩⟩ := clears
      · refine Or.inr (Pool.exists_mem_set h _ ⟨w, there, Or.inl willSweep⟩ ?_)
        rintro (never | never) <;> cases never
      · refine absurd sweeping (calm _ member tag ?_ w there)
        change tag ∈ read.tags.take after.length
        rwa [complete, List.take_length]
    · exact absurd outdated (not_moved_of_unchanged exact' complete unchanged)

variable {indexed : Nat}

theorem Fresh.list_key (tag : Units) (plain : Plain key)
    (h : memory[i]? = some (.reader read (.indexing indexed false))) :
    ∃ store', world.store.sadd clock (tagIndexKey tag) read.key = .ok store' ∧
      Fresh key tags render goal ⟨clock, store', world.database⟩
        (memory.set i (.reader read (.indexing indexed true))) := by
  obtain ⟨proper, -⟩ := fresh.sound _ (List.mem_of_getElem? h)
  obtain ⟨keys, time, added, members⟩ := fresh.kept.sadd clock tag read.key
  refine ⟨_, added, ?_⟩
  have stored : Fresh key tags render goal
      ⟨clock, world.store.put (tagIndexKey tag) (some ⟨.members keys, time⟩), world.database⟩
      memory := by
    refine fresh.put_index later plain _ ?_ ?_
    · rintro e ⟨⟩
      refine ⟨keys, time, rfl, fun k member => ?_⟩
      rcases members with ⟨listed, found, same⟩ | ⟨-, rfl, -⟩
      · rcases (same k).mp member with old | rfl
        · obtain ⟨_, _, content, plainKeys⟩ :=
            fresh.kept.index tag _ (Valkey.live_eq_some.mp found).1
          cases content
          exact plainKeys k old
        · exact proper.plain
      · obtain rfl := List.mem_singleton.mp member
        exact proper.plain
    · intro _ entry _ timely lists
      obtain ⟨listed, limit, found, there, outlives⟩ := lists.live timely
      rcases members with ⟨old, found', same⟩ | ⟨absent, -, -⟩
      · cases found.symm.trans found'
        exact ⟨keys, time, Valkey.put_entries_self _, (same key).mpr (Or.inl there), outlives⟩
      · rw [absent] at found
        cases found
  have still := (stored.sound _ (List.mem_of_getElem? h)).1
  exact stored.move_reader h ⟨still, trivial⟩ (fun _ _ _ _ _ stores => Or.inl stores) (by simp)

theorem Fresh.extend_index (plain : Plain key)
    (h : memory[i]? = some (.reader read (.indexing indexed true)))
    (now : read.tags.drop indexed = tag :: rest)
    (listed : StillListed world.store clock (.reader read (.indexing indexed true))
      (.valkey (.expire (tagIndexKey tag) TAG_INDEX_TTL_SECONDS))) :
    Fresh key tags render goal ⟨clock, world.store.expire clock (tagIndexKey tag)
        TAG_INDEX_TTL_SECONDS, world.database⟩
      (memory.set i (.reader read (.indexing (indexed + 1) false))) := by
  obtain ⟨keys, time, found, there⟩ := stillListed_live listed
  rw [Valkey.expire, found]
  have stored : Fresh key tags render goal ⟨clock, world.store.put (tagIndexKey tag)
      (some ⟨.members keys, some (clock + TAG_INDEX_TTL_SECONDS * 1000)⟩), world.database⟩
      memory := by
    refine fresh.put_index later plain _ ?_ ?_
    · rintro e ⟨⟩
      obtain ⟨_, _, content, plainKeys⟩ :=
        fresh.kept.index tag _ (Valkey.live_eq_some.mp found).1
      cases content
      exact ⟨keys, _, rfl, plainKeys⟩
    · intro _ entry standing timely lists
      obtain ⟨keys', _, found', member, -⟩ := lists.live timely
      cases found.symm.trans found'
      refine ⟨keys, _, Valkey.put_entries_self _, member, ?_⟩
      rintro late ⟨⟩ limit expires
      obtain ⟨_, expires', within⟩ := standing.timely
      cases Option.mem_unique expires expires'
      omega
  have still := (stored.sound _ (List.mem_of_getElem? h)).1
  refine stored.move_reader h ⟨still, trivial⟩ ?_ (by simp)
  rintro entry alive standing tag' - ⟨rfl, member⟩
  rw [now] at member
  rcases List.mem_cons.mp member with rfl | later'
  · refine Or.inr ⟨keys, _, Valkey.put_entries_self _, there, ?_⟩
    rintro late ⟨⟩ limit expires
    obtain ⟨_, expires', within⟩ := standing.timely
    cases Option.mem_unique expires expires'
    exact within
  · refine Or.inl ⟨rfl, ?_⟩
    rw [← List.drop_drop, now]
    exact later'

end Readers

section Writers
variable (fresh : Fresh key tags render goal world memory) (later : world.clock ≤ clock)
variable {changed : Bool} {todo : List Units} {tag k : Units} {keys : List Units}
include fresh later

theorem Fresh.change_database {change : D → D}
    (h : memory[i]? = some (.writer changed todo none))
    (swept : (∃ tag ∈ todo, tag ∈ tags) ∨ ∀ data, goal (change data) = goal data) :
    Fresh key tags render goal ⟨clock, world.store, change world.database⟩
      (memory.set i (.writer true todo none)) := by
  have changes := fresh.change later
    (swept.imp_left fun sweeps => ⟨_, List.mem_of_getElem? h, sweeps⟩)
  exact changes.move_writer h trivial (fun _ _ standing => ⟨nofun, id⟩) Or.inl

/-- The key of an entry that stands is in the index that the sweep reads. -/
theorem Fresh.read_index (h : memory[i]? = some (.writer changed (tag :: todo) none)) :
    ∃ keys, world.store.smembers clock (tagIndexKey tag) = .ok keys ∧
      (Calm (memory.set i (.writer changed todo (some (tag, some keys)))) →
        Fresh key tags render goal ⟨clock, world.store, world.database⟩
          (memory.set i (.writer changed todo (some (tag, some keys))))) := by
  obtain ⟨keys, answered, plainKeys, same⟩ := fresh.kept.smembers clock tag
  refine ⟨keys, answered, fun calm' => ?_⟩
  have there : tag ∈ tags → ∀ entry, world.store.live clock key = some entry →
      Standing key tags goal ⟨clock, world.store, world.database⟩ memory entry → key ∈ keys := by
    intro belongs entry alive standing
    rcases standing.listed tag belongs with stores | lists
    · obtain ⟨g, member, stores⟩ := Pool.exists_mem_set h
        (.writer changed todo (some (tag, some keys))) stores (by rintro ⟨⟩)
      cases g with
      | broken => cases stores
      | writer => cases stores
      | reader read phase =>
        cases phase with
        | indexing indexed listed =>
          have inside := List.mem_set (List.getElem?_eq_some_iff.mp h).1
            (.writer changed todo (some (tag, some keys)) : Memory D)
          exact absurd rfl (calm' _ member tag stores.2 _ inside)
        | start => cases stores
        | reading generations => cases stores
        | checking before value after => cases stores
    · obtain ⟨time, expires, -⟩ := standing.timely
      obtain ⟨listed, limit, found, member, -⟩ := lists.live
        ⟨time, expires, (Valkey.live_eq_some.mp alive).2 time expires⟩
      rwa [same listed limit found]
  refine (fresh.wait later).move_writer h plainKeys (fun entry alive standing => ⟨?_, ?_⟩) ?_
  · rintro ⟨_, ⟨⟩, belongs⟩
    exact there belongs entry alive standing
  · rintro (⟨next, member, belongs⟩ | never)
    · rcases List.mem_cons.mp member with rfl | after
      · exact Or.inr (there belongs entry alive standing)
      · exact Or.inl ⟨next, after, belongs⟩
    · cases never
  · rintro (⟨next, member, belongs⟩ | ⟨_, ⟨⟩, -⟩)
    rcases List.mem_cons.mp member with rfl | after
    · exact Or.inl (Or.inr ⟨next, rfl, belongs⟩)
    · exact Or.inl (Or.inl ⟨next, after, belongs⟩)

theorem Fresh.delete (h : memory[i]? = some (.writer changed todo (some (tag, some (k :: keys))))) :
    Fresh key tags render goal ⟨clock, world.store.del k, world.database⟩
      (memory.set i (.writer changed todo (some (tag, some keys)))) := by
  have plainKeys : ∀ key ∈ k :: keys, Plain key := fresh.sound _ (List.mem_of_getElem? h)
  have dropped :=
    fresh.put_plain later (plainKeys k List.mem_cons_self) none (by simp) (by rintro _ _ ⟨⟩)
  refine dropped.move_writer h (fun key member => plainKeys key (List.mem_cons_of_mem k member))
    (fun entry alive standing => ?_) Or.inl
  have other : key ≠ k := by
    rintro rfl
    have stands := (Valkey.live_eq_some.mp alive).1
    change (world.store.put key none).entries key = some entry at stands
    rw [Valkey.put_entries_self] at stands
    cases stands
  have found := standing.found _ (List.mem_of_getElem? h)
  refine ⟨fun sweeps => (List.mem_cons.mp (found sweeps)).resolve_left other, ?_⟩
  rintro (sweeps | deletes)
  · exact Or.inl sweeps
  · exact Or.inr ((List.mem_cons.mp deletes).resolve_left other)

theorem Fresh.delete_index (plain : Plain key)
    (h : memory[i]? = some (.writer changed todo (some (tag, some [])))) :
    Fresh key tags render goal ⟨clock, world.store.del (tagIndexKey tag), world.database⟩
      (memory.set i (.writer changed todo (some (tag, none)))) := by
  have member := List.mem_of_getElem? h
  have dropped := fresh.put_index later plain none (by simp)
    (fun belongs entry standing _ _ => nomatch standing.found _ member ⟨tag, rfl, belongs⟩)
  refine dropped.move_writer h trivial (fun entry alive standing => ⟨?_, ?_⟩) Or.inl
  · rintro ⟨_, ⟨⟩, belongs⟩
    exact nomatch standing.found _ member ⟨tag, rfl, belongs⟩
  · rintro (sweeps | deletes)
    · exact Or.inl sweeps
    · cases deletes

/-- What was loaded before the sweep is not stored after it. -/
theorem Fresh.bump (plain : Plain key) (calm : Calm memory)
    (h : memory[i]? = some (.writer changed todo (some (tag, none)))) :
    Fresh key tags render goal ⟨clock, world.store.put (tagGenerationKey tag)
        (some ⟨.text (.integer (generation world.store tag + 1)), none⟩), world.database⟩
      (memory.set i (.writer changed todo none)) := by
  have raised := fresh.incr later tag plain fun g member inside =>
    calm g member tag inside _ (List.mem_of_getElem? h) rfl
  refine raised.move_writer h trivial (fun entry alive standing => ⟨nofun, ?_⟩) ?_
  · rintro (sweeps | deletes)
    · exact Or.inl sweeps
    · cases deletes
  · rintro (sweeps | ⟨_, ⟨⟩, belongs⟩)
    · exact Or.inl (Or.inl sweeps)
    · refine Or.inr fun read before value after member mine => ?_
      obtain ⟨proper, taken, complete, -⟩ := fresh.sound _ member
      obtain ⟨rfl, -⟩ := proper.same mine
      obtain ⟨text, pair⟩ := exists_mem_zip belongs complete
      obtain ⟨n, below, same⟩ := taken _ pair
      refine ⟨_, pair, n, ?_, same⟩
      rw [generation_put_counter, if_pos rfl]
      exact Int.lt_add_one_of_le below

end Writers

theorem exec_valkey (world : CacheWorld D) {choice : Choice} (performed : choice.outcome = .performed)
    (command : Command Units) {answer : command.Answer} {store' : Valkey Units}
    (answers : world.store.exec (world.clock + choice.elapsed) command = (.ok answer, store')) :
    world.exec choice (.valkey command) =
      (.ok answer, ⟨world.clock + choice.elapsed, store', world.database⟩) := by
  simp only [CacheWorld.exec, performed, answers]

/-- A read whose call fails stores nothing. -/
theorem fresh_failed {mayChange : Bool → List Units → (D → D) → Prop} {g : Memory D}
    {call : CacheCall D} {choice : Choice} (h : memory[i]? = some g)
    (fresh : Fresh key tags render goal world memory) (allowed : Allowed mayChange g call)
    (fails : choice.outcome ≠ .performed) (harmless : (g.failed call).isBroken = false) :
    Fresh key tags render goal (world.exec choice call).2
      (memory.set i (g.next call (world.exec choice call).1)) := by
  have later : world.clock ≤ world.clock + choice.elapsed := by omega
  cases allowed with
  | lookUp read =>
    cases outcome : choice.outcome with
    | performed => exact absurd outcome fails
    | refused | lost =>
      simp only [CacheWorld.exec, outcome]
      exact fresh.look_up later h
  | dropCorrupt read =>
    cases outcome : choice.outcome with
    | performed => exact absurd outcome fails
    | refused =>
      simp only [CacheWorld.exec, outcome, Memory.next, Memory.failed]
      rw [Pool.set_of_some h]
      exact fresh.wait later
    | lost =>
      simp only [CacheWorld.exec, outcome]
      exact fresh.drop_corrupt later h
  | load complete =>
    cases outcome : choice.outcome with
    | performed => exact absurd outcome fails
    | refused | lost =>
      simp only [CacheWorld.exec, outcome, Memory.next, Memory.failed]
      rw [Pool.set_of_some h]
      exact fresh.wait later
  | compare now =>
    cases outcome : choice.outcome with
    | performed => exact absurd outcome fails
    | refused | lost =>
      simp only [CacheWorld.exec, outcome, Memory.next, Memory.failed]
      rw [Pool.set_of_some h]
      exact fresh.wait later
  | _ => cases harmless

/-- One allowed call. Only what a read loads is left to show. -/
theorem fresh_step {mayChange : Bool → List Units → (D → D) → Prop} {g : Memory D}
    {call : CacheCall D} {choice : Choice} (plain : Plain key)
    (changes : ∀ changed todo change, mayChange changed todo change →
      (∃ tag ∈ todo, tag ∈ tags) ∨ ∀ data, goal (change data) = goal data)
    (h : memory[i]? = some g) (fresh : Fresh key tags render goal world memory)
    (calm : Calm memory)
    (calm' : Calm (memory.set i (g.next call (world.exec choice call).1)))
    (allowed : Allowed mayChange g call)
    (harmless : choice.outcome = .performed ∨ (g.failed call).isBroken = false)
    (listed : StillListed world.store (world.clock + choice.elapsed) g call)
    (loads : call = .readDatabase → ∀ read generations, g = .reader read (.reading generations) →
      read.key = key → Justified tags render goal world memory generations world.database) :
    Fresh key tags render goal (world.exec choice call).2
      (memory.set i (g.next call (world.exec choice call).1)) := by
  by_cases performed : choice.outcome = .performed
  case neg => exact fresh_failed h fresh allowed performed (harmless.resolve_left performed)
  have later : world.clock ≤ world.clock + choice.elapsed := by omega
  have member := List.mem_of_getElem? h
  cases allowed with
  | broken call => exact (fresh.sound _ member).elim
  | lookUp read =>
    obtain ⟨answer, got⟩ := (fresh.sound _ member).1.textual.get (world.clock + choice.elapsed)
    rw [exec_valkey world performed (.get read.key) (Prod.ext got rfl)]
    exact fresh.look_up later h
  | dropCorrupt read =>
    rw [exec_valkey world performed (.del read.key) rfl]
    exact fresh.drop_corrupt later h
  | @snapshot read generations tag rest now =>
    obtain ⟨answer, got, same⟩ := fresh.kept.get_generation (world.clock + choice.elapsed) tag
    rw [exec_valkey world performed (.get (tagGenerationKey tag)) (Prod.ext got rfl)]
    simp only [Memory.next, Memory.answered, same]
    exact fresh.snapshot later h now
  | @load read generations complete =>
    simp only [CacheWorld.exec, performed, Memory.next]
    exact fresh.load later h complete (loads rfl read generations rfl)
  | @compare read before after value tag rest now =>
    obtain ⟨answer, got, same⟩ := fresh.kept.get_generation (world.clock + choice.elapsed) tag
    rw [exec_valkey world performed (.get (tagGenerationKey tag)) (Prod.ext got rfl)]
    simp only [Memory.next, Memory.answered, same]
    exact fresh.compare later h now
  | @store read before after value complete unchanged =>
    obtain ⟨proper, -⟩ := fresh.sound _ member
    have stored : world.store.set (world.clock + choice.elapsed) read.key
        (stringify (read.render value)) (some read.ttl) =
        .ok (world.store.put read.key (some ⟨.text (stringify (read.render value)),
          some (world.clock + choice.elapsed + read.ttl * 1000)⟩)) := by
      have positive := proper.positive
      rw [Valkey.set, if_neg (by omega), if_neg (by omega)]
    have answers := exec_valkey world performed
      (.set read.key (stringify (read.render value)) (some read.ttl))
      (congrArg world.store.written stored)
    rw [answers] at calm' ⊢
    exact fresh.put_value later h calm calm' complete unchanged
  | @list read indexed tag rest now =>
    obtain ⟨store', added, kept⟩ := fresh.list_key later tag plain h
    rw [exec_valkey world performed (.sadd (tagIndexKey tag) read.key)
      (congrArg world.store.written added)]
    exact kept
  | @extend read indexed tag rest now =>
    rw [exec_valkey world performed (.expire (tagIndexKey tag) TAG_INDEX_TTL_SECONDS) rfl]
    exact fresh.extend_index later plain h now listed
  | @change changed todo change may =>
    simp only [CacheWorld.exec, performed, Memory.next]
    exact fresh.change_database later h (changes changed todo change may)
  | readIndex changed tag todo =>
    obtain ⟨keys, answered, kept⟩ := fresh.read_index later h
    rw [exec_valkey world performed (.smembers (tagIndexKey tag)) (Prod.ext answered rfl)] at calm' ⊢
    exact kept calm'
  | delete changed todo tag k keys =>
    rw [exec_valkey world performed (.del k) rfl]
    exact fresh.delete later h
  | deleteIndex changed todo tag =>
    rw [exec_valkey world performed (.del (tagIndexKey tag)) rfl]
    exact fresh.delete_index later plain h
  | bump changed todo tag =>
    rw [exec_valkey world performed (.incr (tagGenerationKey tag))
      (congrArg world.store.counted (fresh.kept.incr _ tag))]
    exact fresh.bump later plain calm h

/-! Runs. -/

/-- A failure only keeps a read from being stored, and an index that a read extends still
names its key. -/
def Undisturbed (choice : Choice) (world : CacheWorld D) (g : Memory D) (call : CacheCall D) :
    Prop :=
  (choice.outcome = .performed ∨ (g.failed call).isBroken = false) ∧
    StillListed world.store (world.clock + choice.elapsed) g call

instance (choice : Choice) (world : CacheWorld D) (g : Memory D) (call : CacheCall D) :
    Decidable (Undisturbed choice world g call) :=
  inferInstanceAs (Decidable (_ ∧ _))

variable (key tags render) in
/-- Nothing is under way: an entry under the key is current, and in every index. -/
structure Coherent (world : CacheWorld D) : Prop where
  kept : WellKept world.store
  textual : Textual world.store key
  timely : ∀ entry, world.store.live world.clock key = some entry →
    ∃ time ∈ entry.expiresAt, time ≤ world.clock + TAG_INDEX_TTL_SECONDS * 1000
  listed : ∀ entry, world.store.live world.clock key = some entry →
    ∀ tag ∈ tags, Lists key world.store tag entry
  current : ∀ entry, world.store.live world.clock key = some entry →
    entry.content = .text (stringify (render world.database))

variable (key tags render) in
theorem Coherent.empty (clock : Int) (database : D) :
    Coherent key tags render ⟨clock, Valkey.empty, database⟩ := by
  have absent (entry : Entry Units) : Valkey.empty.live clock key ≠ some entry := (by rintro ⟨⟩)
  exact ⟨⟨fun _ => Or.inl rfl, by rintro _ _ ⟨⟩⟩, by rintro _ ⟨⟩,
    fun entry alive => absurd alive (absent entry),
    fun entry alive => absurd alive (absent entry), fun entry alive => absurd alive (absent entry)⟩

theorem Coherent.fresh (coherent : Coherent key tags render world)
    (reads : ∀ read phase, .reader read phase ∈ memory →
      phase = .start ∧ Proper key tags render world.store read)
    (writes : ∀ changed todo current, .writer changed todo current ∈ memory → current = none)
    (whole : .broken ∉ memory)
    (covers : goal = render ∨ ∃ g ∈ memory, g.willSweep tags) :
    Fresh key tags render goal world memory := by
  refine ⟨coherent.kept, fun g member => ?_, fun entry alive => ⟨coherent.timely entry alive,
    fun tag belongs => Or.inr (coherent.listed entry alive tag belongs), fun g member => ?_, ?_⟩,
    fun read before value after member => ?_⟩
  · cases g with
    | broken => exact whole member
    | writer changed todo current =>
      obtain rfl := writes changed todo current member
      trivial
    | reader read phase =>
      obtain ⟨rfl, proper⟩ := reads read phase member
      exact ⟨proper, trivial⟩
  · rintro ⟨tag, sweeping, -⟩
    cases g with
    | broken => cases sweeping
    | reader read phase => cases sweeping
    | writer changed todo current =>
      obtain rfl := writes changed todo current member
      cases sweeping
  · rcases covers with rfl | ⟨g, member, sweeps⟩
    · exact Or.inl (coherent.current entry alive)
    · exact Or.inr ⟨g, member, Or.inl sweeps⟩
  · obtain ⟨never, -⟩ := reads read _ member
    cases never

/-- A read is over, or a change and its sweep are. -/
def Memory.isOver : Memory D → Prop
  | .reader _ _ => True
  | .writer _ todo current => todo = [] ∧ current = none
  | .broken => True

theorem Memory.not_willClear {g : Memory D} (finished : g.isOver) : ¬ g.willClear key tags := by
  cases g with
  | reader read phase => rintro (never | never) <;> cases never
  | broken => rintro (never | never) <;> cases never
  | writer changed todo current =>
    obtain ⟨rfl, rfl⟩ := finished
    rintro (⟨tag, never, -⟩ | never) <;> cases never

/-- No invalidation is to come for what is still under the key. -/
theorem Fresh.content {entry : Entry Units} (fresh : Fresh key tags render goal world memory)
    (idle : ∀ g ∈ memory, ¬ g.willClear key tags)
    (alive : world.store.live world.clock key = some entry) :
    entry.content = .text (stringify (goal world.database)) := by
  rcases (fresh.standing entry alive).current with current | ⟨g, member, clears⟩
  · exact current
  · exact absurd clears (idle g member)

end Caching
