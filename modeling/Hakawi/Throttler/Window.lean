import Hakawi.Throttler.ValkeyThrottlerStorage
import Mathlib.Algebra.Order.BigOperators.Group.List
import Mathlib.Algebra.Order.Ring.Int

/-!
# One window of a throttler key

Any number of increments of one key, their store commands in any order, as long as
the counter does not expire between them. The counter bounds the increments that
report not blocked; it never goes down unless a tier without a block duration
deletes it.
-/

namespace Throttler
open Common Effects

/-- How far an increment has come. -/
inductive Phase where
  | begun
  | timed (now : Int)
  /-- It has found a block in force. -/
  | refused
  /-- It has found a block that is over. -/
  | expired (now : Int)
  /-- It has found no block in force, and is about to count. -/
  | cleared (now : Int)
  | counted (now totalHits : Int)
  /-- It has recorded a block. -/
  | blocking
  /-- It has deleted the counter. -/
  | reset
  | failed

namespace Phase

/-- It is past the look at the block, and has not counted. -/
def Past : Phase → Prop
  | expired _ | cleared _ => True
  | _ => False

end Phase

namespace Tier
variable (tier : Tier)

/-- The calls of an increment, by how far it has come. -/
inductive Allowed : Phase → Call String → Prop where
  | clock : Allowed .begun .now
  | look (now : Int) : Allowed (.timed now) (.valkey (.get tier.block))
  | hits : Allowed .refused (.valkey (.get tier.hits))
  | release (now : Int) : Allowed (.expired now) (.valkey (.del tier.block))
  | count (now : Int) :
    Allowed (.cleared now) (.valkey (.incrWithTtl tier.hits tier.ttlSeconds))
  | remaining (now totalHits : Int) : Allowed (.counted now totalHits) (.valkey (.ttl tier.hits))
  | block (now totalHits : Int) (ttl : Option Int) (exceeded : tier.limit < totalHits)
    (blocks : 0 < tier.blockDuration) :
    Allowed (.counted now totalHits)
      (.valkey (.set tier.block (.integer (now + tier.blockDuration)) ttl))
  | reset (now totalHits : Int) (exceeded : tier.limit < totalHits)
    (blocks : tier.blockDuration ≤ 0) :
    Allowed (.counted now totalHits) (.valkey (.del tier.hits))

def looked (now : Int) (raw : Option Text) : Phase :=
  if raw.isSome then if parseEpoch raw 0 > now then .refused else .expired now else .cleared now

def next : Phase → (call : Call String) → CallResult call → Phase
  | .begun, .now, now => .timed now
  | .timed now, .valkey (.get _), .ok raw => looked now raw
  | .refused, .valkey (.get _), .ok _ => .refused
  | .expired now, .valkey (.del _), .ok _ => .cleared now
  | .cleared now, .valkey (.incrWithTtl _ _), .ok totalHits => .counted now totalHits
  | .counted now totalHits, .valkey (.ttl _), .ok _ => .counted now totalHits
  | .counted _ _, .valkey (.set _ _ _), .ok _ => .blocking
  | .counted _ _, .valkey (.del _), .ok _ => .reset
  | _, _, _ => .failed

def protocol : Protocol (Call String) CallResult Phase :=
  ⟨tier.Allowed, next⟩

/-- What a report says about how the increment came to it. -/
def Reported : Except Failure ValkeyThrottlerStorageRecord → Phase → Prop
  | .ok record, phase =>
    if record.isBlocked then phase = .refused ∨ phase = .blocking ∨ phase = .reset
    else ∃ now totalHits, phase = .counted now totalHits ∧ totalHits ≤ tier.limit
  | .error _, phase => phase = .failed

theorem reaches_report {now totalHits : Int} (timeToExpire : Int) :
    tier.protocol.Reaches tier.Reported (.counted now totalHits)
      (tier.report now totalHits timeToExpire).run := by
  rw [report]
  by_cases exceeded : totalHits > tier.limit
  · by_cases blocks : tier.blockDuration > 0
    · simp only [exceeded, blocks, if_true]
      constructor
      · exact .block now totalHits _ exceeded blocks
      · rintro (e | ⟨⟩)
        · rfl
        · exact Or.inr (Or.inl rfl)
    · simp only [exceeded, blocks, if_true, if_false]
      constructor
      · exact .reset now totalHits exceeded (by omega)
      · rintro (e | ⟨⟩)
        · rfl
        · exact Or.inr (Or.inr rfl)
  · simp only [exceeded, if_false]
    exact ⟨now, totalHits, rfl, by omega⟩

theorem reaches_withTotal {now totalHits : Int} :
    tier.protocol.Reaches tier.Reported (.counted now totalHits)
      (tier.withTotal now totalHits).run := by
  rw [withTotal]
  split
  · constructor
    · exact .remaining now totalHits
    · rintro (e | remaining)
      · rfl
      · exact tier.reaches_report _
  · exact tier.reaches_report _

theorem reaches_count {now : Int} (positive : 0 < tier.ttlSeconds) :
    tier.protocol.Reaches tier.Reported (.cleared now) (tier.count now).run := by
  simp only [count, gt_iff_lt, positive, if_true]
  constructor
  · exact .count now
  · rintro (e | totalHits)
    · rfl
    · exact tier.reaches_withTotal

theorem reaches_withBlock {now : Int} {blockRaw : Option Text} (positive : 0 < tier.ttlSeconds) :
    tier.protocol.Reaches tier.Reported (looked now blockRaw) (tier.withBlock now blockRaw).run := by
  simp only [withBlock, looked]
  split
  · split
    · constructor
      · exact .hits
      · rintro (e | raw)
        · rfl
        · exact Or.inl rfl
    · constructor
      · exact .release now
      · rintro (e | ⟨⟩)
        · rfl
        · exact tier.reaches_count positive
  · exact tier.reaches_count positive

theorem reaches_increment (positive : 0 < tier.ttlSeconds) :
    tier.protocol.Reaches tier.Reported .begun tier.incrementInValkey.run := by
  constructor
  · exact .clock
  · intro now
    constructor
    · exact .look now
    · rintro (e | blockRaw)
      · rfl
      · exact tier.reaches_withBlock positive

/-! ### The counter -/

def counter (world : ValkeyWorld String) : Int :=
  match world.store.entries tier.hits with
  | some ⟨.text (.integer value), _⟩ => value
  | _ => 0

/-- The window of the counter, if there is one, has not ended. -/
def Unexpired (elapsed : Nat) (world : ValkeyWorld String) : Prop :=
  (world.store.entries tier.hits).all fun entry =>
    entry.expiresAt.all fun time => world.clock + elapsed < time

instance (elapsed : Nat) (world : ValkeyWorld String) : Decidable (tier.Unexpired elapsed world) :=
  inferInstanceAs (Decidable (_ = true))

variable {tier} {world : ValkeyWorld String} {elapsed : Nat}

theorem hits_ne_block : tier.hits ≠ tier.block := hitsKey_ne_blockKey _ _ _ _

theorem live_of_unexpired (unexpired : tier.Unexpired elapsed world) :
    world.store.live (world.clock + elapsed) tier.hits = world.store.entries tier.hits := by
  rw [Valkey.live]
  cases found : world.store.entries tier.hits with
  | none => rfl
  | some entry =>
    simp only [Unexpired, found, Option.all_some] at unexpired
    simp [Option.filter, unexpired]

theorem clock_le {op : Call String} : world.clock ≤ (exec elapsed world op).2.clock := by
  cases op <;> exact Int.le_add_of_nonneg_right (Int.natCast_nonneg elapsed)

variable (world elapsed) in
theorem counter_frame (command : Command String) (different : tier.hits ≠ command.key) :
    tier.counter (exec elapsed world (.valkey command)).2 = tier.counter world := by
  simp only [counter, exec, Valkey.exec_frame command different]

theorem counter_reset : tier.counter (exec elapsed world (.valkey (.del tier.hits))).2 = 0 := by
  simp [counter, exec, Valkey.exec, Valkey.del]

/-- Counting answers one more than the counter, and leaves that; or it throws. -/
theorem counter_count (positive : 0 < tier.ttlSeconds) (unexpired : tier.Unexpired elapsed world) :
    let called := exec elapsed world (.valkey (.incrWithTtl tier.hits tier.ttlSeconds))
    (called.1 = .ok (tier.counter world + 1) ∧ tier.counter called.2 = tier.counter world + 1) ∨
      ((∃ e, called.1 = .error e) ∧ tier.counter called.2 = tier.counter world) := by
  have live := live_of_unexpired unexpired
  rcases Valkey.exec_incrWithTtl world.store (world.clock + elapsed) tier.hits positive with ⟨value, time, called, found⟩ | ⟨e, called⟩
  · left
    have before : value = tier.counter world + 1 := by
      rw [live] at found
      rcases found with ⟨absent, rfl, -⟩ | present
      · simp [counter, absent]
      · simp [counter, present]
    constructor
    · simp only [exec, called]
      exact congrArg (Except.ok : Int → Except Failure Int) before
    · rw [← before]
      simp only [exec, called, counter, Valkey.put_entries_self]
  · right
    simp only [exec, called]
    exact ⟨⟨e, rfl⟩, rfl⟩

/-! ### The increments within the limit -/

variable (tier) in
/-- One for an increment that will report not blocked. -/
def within : Phase → Int
  | .counted _ totalHits => if totalHits ≤ tier.limit then 1 else 0
  | _ => 0

/-- One for an increment that has deleted the counter. -/
def resets : Phase → Int
  | .reset => 1
  | _ => 0

variable (tier) in
/-- Between two resets the counter bounds the increments within the limit. -/
def Bounded (world : ValkeyWorld String) (memory : List Phase) : Prop :=
  0 ≤ tier.counter world ∧
    (0 < tier.blockDuration → (memory.map resets).sum = 0) ∧
    (memory.map tier.within).sum ≤
      tier.limit * (memory.map resets).sum + min (tier.counter world) tier.limit

/-- A phase counts for what its call did to the counter. -/
theorem Bounded.set {world' : ValkeyWorld String} {memory : List Phase} {i : Nat} {phase phase' : Phase}
    (bounded : tier.Bounded world memory) (now : memory[i]? = some phase)
    (nonneg : 0 ≤ tier.counter world')
    (kept : resets phase = 0) (blocks : 0 < tier.blockDuration → resets phase' = 0)
    (counts : tier.within phase' + min (tier.counter world) tier.limit ≤
      tier.within phase + tier.limit * resets phase' + min (tier.counter world') tier.limit) :
    tier.Bounded world' (memory.set i phase') := by
  obtain ⟨-, never, bound⟩ := bounded
  refine ⟨nonneg, fun positive => ?_, ?_⟩
  · rw [Pool.sum_map_set resets now, never positive, kept, blocks positive]
    rfl
  · rw [Pool.sum_map_set resets now, Pool.sum_map_set tier.within now, kept, Int.mul_add,
      Int.sub_zero]
    omega

theorem Bounded.quiet {world' : ValkeyWorld String} {memory : List Phase} {i : Nat} {phase phase' : Phase}
    (bounded : tier.Bounded world memory) (now : memory[i]? = some phase)
    (same : tier.counter world' = tier.counter world)
    (kept : resets phase = 0) (kept' : resets phase' = 0)
    (fewer : tier.within phase' ≤ tier.within phase) :
    tier.Bounded world' (memory.set i phase') := by
  apply bounded.set now _ kept (fun _ => kept')
  · rw [kept', same, Int.mul_zero]
    omega
  · rw [same]
    exact bounded.1

theorem within_nonneg (tier : Tier) (phase : Phase) : 0 ≤ tier.within phase := by
  cases phase with
  | counted now totalHits =>
    simp only [within]
    split <;> omega
  | _ => exact Int.le_refl 0

/-- An answer leads to a phase that does not count, or to the one before. -/
theorem quiet_looked (tier : Tier) (now : Int) (raw : Option Text) :
    tier.within (looked now raw) = 0 ∧ resets (looked now raw) = 0 := by
  rw [looked]
  split
  · split
    · exact ⟨rfl, rfl⟩
    · exact ⟨rfl, rfl⟩
  · exact ⟨rfl, rfl⟩

theorem bounded_preserved (positive : 0 < tier.ttlSeconds) :
    Pool.Preserves exec tier.protocol (fun elapsed world _ _ => tier.Unexpired elapsed world)
      tier.Bounded := by
  intro elapsed world memory i phase op now bounded allowed unexpired
  have nonneg := bounded.1
  have different : tier.hits ≠ tier.block := hits_ne_block
  cases allowed with
  | clock => exact bounded.quiet now rfl rfl rfl (Int.le_refl 0)
  | look time =>
    have same := counter_frame world elapsed (.get tier.block) different
    generalize (exec elapsed world (.valkey (.get tier.block))).1 = answer
    rcases answer with e | raw
    · exact bounded.quiet now same rfl rfl (Int.le_refl 0)
    · obtain ⟨none, keep⟩ := quiet_looked tier time raw
      exact bounded.quiet now same rfl keep (Int.le_of_eq none)
  | hits =>
    generalize (exec elapsed world (.valkey (.get tier.hits))).1 = answer
    rcases answer with e | raw
    · exact bounded.quiet now rfl rfl rfl (Int.le_refl 0)
    · exact bounded.quiet now rfl rfl rfl (Int.le_refl 0)
  | release time => exact bounded.quiet now (counter_frame _ _ _ different) rfl rfl (Int.le_refl 0)
  | count time =>
    obtain ⟨answer, after⟩ | ⟨⟨e, answer⟩, after⟩ := counter_count positive unexpired
    · rw [answer]
      refine bounded.set now (by omega) rfl (fun _ => rfl) ?_
      rw [after]
      simp only [protocol, next, within, resets]
      split <;> omega
    · rw [answer]
      exact bounded.quiet now after rfl rfl (Int.le_refl 0)
  | remaining time totalHits => exact bounded.quiet now rfl rfl rfl (Int.le_refl _)
  | block time totalHits ttl exceeded blocks =>
    have same := counter_frame world elapsed
      (.set tier.block (.integer (time + tier.blockDuration)) ttl) different
    generalize (exec elapsed world (.valkey (.set tier.block _ ttl))).1 = answer
    rcases answer with e | ⟨⟩
    · exact bounded.quiet now same rfl rfl (within_nonneg _ _)
    · exact bounded.quiet now same rfl rfl (within_nonneg _ _)
  | reset time totalHits exceeded blocks =>
    refine bounded.set now (Int.le_of_eq counter_reset.symm) rfl (by omega) ?_
    rw [counter_reset]
    have := within_nonneg tier (.counted time totalHits)
    simp only [protocol, next, within, resets, exec, Valkey.exec] at this ⊢
    omega

/-! ### The block -/

variable (tier) in
/-- The marker says that the key is blocked beyond the time of the call. -/
def inForce (elapsed : Nat) (world : ValkeyWorld String) : Bool :=
  match world.store.get (world.clock + elapsed) tier.block with
  | .ok (some text) => parseEpoch (some text) 0 > world.clock + elapsed
  | _ => false

variable (tier) in
/-- What an increment knows of the clock and the counter is still so. -/
def Known (world : ValkeyWorld String) : Phase → Prop
  | .timed now => now ≤ world.clock
  | .counted _ totalHits => 0 < tier.blockDuration → totalHits ≤ tier.counter world
  | _ => True

variable (tier) in
/-- While a block is in force the counter is over the limit, or nobody is about to count. -/
def Guarded (world : ValkeyWorld String) (memory : List Phase) : Prop :=
  (∀ phase ∈ memory, tier.Known world phase) ∧
    ∀ elapsed, tier.inForce elapsed world = true →
      (0 < tier.blockDuration ∧ tier.limit < tier.counter world) ∨ ∀ phase ∈ memory, ¬ phase.Past

theorem inForce_iff {elapsed : Nat} : tier.inForce elapsed world = true ↔
    ∃ text time, world.store.entries tier.block = some ⟨.text text, time⟩ ∧
      (∀ t ∈ time, world.clock + elapsed < t) ∧
      world.clock + elapsed < parseEpoch (some text) 0 := by
  rw [inForce, Valkey.get]
  cases found : world.store.live (world.clock + elapsed) tier.block with
  | none =>
    constructor
    · intro h
      cases h
    · rintro ⟨text, time, present, alive, -⟩
      rw [Valkey.live_eq_some.mpr ⟨present, alive⟩] at found
      cases found
  | some entry =>
    obtain ⟨present, alive⟩ := Valkey.live_eq_some.mp found
    rcases entry with ⟨text | keys, time⟩
    · simp only [decide_eq_true_eq]
      constructor
      · intro later
        exact ⟨text, time, present, alive, later⟩
      · rintro ⟨text', time', present', -, later⟩
        rw [present] at present'
        cases present'
        exact later
    · constructor
      · intro h
        cases h
      · rintro ⟨text', time', present', -⟩
        rw [present] at present'
        cases present'

/-- A marker nobody has touched was in force before, if it is now. -/
theorem inForce_earlier {world' : ValkeyWorld String} {elapsed later : Nat}
    (force : tier.inForce later world' = true)
    (clock : world'.clock = world.clock + elapsed)
    (same : world'.store.entries tier.block = world.store.entries tier.block) : tier.inForce (elapsed + later) world = true := by
  obtain ⟨text, time, present, alive, beyond⟩ := inForce_iff.mp force
  rw [same] at present
  rw [clock] at alive beyond
  refine inForce_iff.mpr ⟨text, time, present, fun t ht => ?_, ?_⟩
  · have := alive t ht
    omega
  · omega

theorem Known.later {world' : ValkeyWorld String} {phase : Phase} (known : tier.Known world phase)
    (clock : world.clock ≤ world'.clock)
    (grows : 0 < tier.blockDuration → tier.counter world ≤ tier.counter world') :
    tier.Known world' phase := by
  cases phase with
  | timed now => exact Int.le_trans known clock
  | counted now totalHits => exact fun blocks => Int.le_trans (known blocks) (grows blocks)
  | _ => trivial

theorem Guarded.set {world' : ValkeyWorld String} {memory : List Phase} {i : Nat} {phase phase' : Phase}
    (guarded : tier.Guarded world memory) (now : memory[i]? = some phase)
    (clock : world.clock ≤ world'.clock)
    (grows : 0 < tier.blockDuration → tier.counter world ≤ tier.counter world')
    (known : tier.Known world' phase')
    (block : ∀ later, tier.inForce later world' = true →
      (0 < tier.blockDuration ∧ tier.limit < tier.counter world') ∨
        (∃ earlier, tier.inForce earlier world = true) ∧ (phase'.Past → phase.Past)) :
    tier.Guarded world' (memory.set i phase') := by
  constructor
  · intro other member
    rcases List.mem_or_eq_of_mem_set member with old | rfl
    · exact (guarded.1 other old).later clock grows
    · exact known
  · intro later force
    rcases block later force with exceeded | ⟨⟨earlier, before⟩, past⟩
    · exact Or.inl exceeded
    · rcases guarded.2 earlier before with ⟨blocks, exceeded⟩ | nobody
      · have := grows blocks
        exact Or.inl ⟨blocks, by omega⟩
      · right
        intro other member
        rcases List.mem_or_eq_of_mem_set member with old | rfl
        · exact nobody other old
        · exact fun isPast => nobody phase (List.mem_of_getElem? now) (past isPast)

theorem inForce_sooner {elapsed later : Nat} (sooner : elapsed ≤ later)
    (force : tier.inForce later world = true) : tier.inForce elapsed world = true := by
  obtain ⟨text, time, present, alive, beyond⟩ := inForce_iff.mp force
  refine inForce_iff.mpr ⟨text, time, present, fun t ht => ?_, by omega⟩
  have := alive t ht
  omega

/-- An increment that looks while a block is in force finds it. -/
theorem look_inForce {now : Int} (before : now ≤ world.clock)
    (force : tier.inForce elapsed world = true) :
    next (.timed now) (.valkey (.get tier.block))
      (exec elapsed world (.valkey (.get tier.block))).1 = .refused := by
  obtain ⟨text, time, present, alive, beyond⟩ := inForce_iff.mp force
  have found : world.store.get (world.clock + elapsed) tier.block = .ok (some text) := by
    rw [Valkey.get, Valkey.live_eq_some.mpr ⟨present, alive⟩]
  have later : parseEpoch (some text) 0 > now := by omega
  simp only [exec, Valkey.exec, found]
  simp [next, looked, later]

theorem known_looked (now : Int) (raw : Option Text) :
    tier.Known world (looked now raw) := by
  rw [looked]
  split
  · split <;> trivial
  · trivial

variable (world elapsed) in
theorem block_frame (command : Command String) (different : tier.block ≠ command.key) :
    (exec elapsed world (.valkey command)).2.store.entries tier.block =
      world.store.entries tier.block :=
  Valkey.exec_frame command different

theorem guarded_preserved (positive : 0 < tier.ttlSeconds) :
    Pool.Preserves exec tier.protocol (fun elapsed world _ _ => tier.Unexpired elapsed world)
      tier.Guarded := by
  intro elapsed world memory i phase op now guarded allowed unexpired
  have different : tier.hits ≠ tier.block := hits_ne_block
  have known := guarded.1 phase (List.mem_of_getElem? now)
  have clock : world.clock ≤ (exec elapsed world op).2.clock := clock_le
  cases allowed with
  | clock =>
    apply guarded.set now clock
    · exact fun _ => Int.le_refl _
    · exact Int.le_refl _
    · exact fun later force => Or.inr ⟨⟨_, inForce_earlier force rfl rfl⟩, False.elim⟩
  | look time =>
    have same := counter_frame world elapsed (.get tier.block) different
    apply guarded.set now clock
    · exact fun _ => Int.le_of_eq same.symm
    · generalize (exec elapsed world (.valkey (.get tier.block))).1 = answer
      rcases answer with e | raw
      · trivial
      · exact known_looked time raw
    · intro later force
      have earlier : tier.inForce (elapsed + later) world = true := inForce_earlier force rfl rfl
      refine Or.inr ⟨⟨_, earlier⟩, fun past => ?_⟩
      change Phase.Past (next _ _ _) at past
      rw [look_inForce known (inForce_sooner (Nat.le_add_right _ _) earlier)] at past
      exact past
  | hits =>
    apply guarded.set now clock
    · exact fun _ => Int.le_refl _
    · generalize (exec elapsed world (.valkey (.get tier.hits))).1 = answer
      rcases answer with e | raw <;> trivial
    · intro later force
      refine Or.inr ⟨⟨_, inForce_earlier force rfl rfl⟩, ?_⟩
      generalize (exec elapsed world (.valkey (.get tier.hits))).1 = answer
      rcases answer with e | raw <;> exact id
  | release time =>
    apply guarded.set now clock
    · exact fun _ => Int.le_of_eq (counter_frame _ _ _ different).symm
    · trivial
    · intro later force
      obtain ⟨text, time, present, -⟩ := inForce_iff.mp force
      simp [exec, Valkey.exec, Valkey.del] at present
  | count time =>
    have same := block_frame world elapsed (.incrWithTtl tier.hits tier.ttlSeconds) different.symm
    obtain ⟨answer, after⟩ | ⟨⟨e, answer⟩, after⟩ := counter_count positive unexpired
    · rw [answer]
      apply guarded.set now clock
      · omega
      · exact fun _ => Int.le_of_eq after.symm
      · exact fun later force => Or.inr ⟨⟨_, inForce_earlier force rfl same⟩, fun _ => trivial⟩
    · rw [answer]
      apply guarded.set now clock
      · omega
      · trivial
      · exact fun later force => Or.inr ⟨⟨_, inForce_earlier force rfl same⟩, fun _ => trivial⟩
  | remaining time totalHits =>
    apply guarded.set now clock
    · exact fun _ => Int.le_refl _
    · exact known
    · exact fun later force => Or.inr ⟨⟨_, inForce_earlier force rfl rfl⟩, False.elim⟩
  | block time totalHits ttl exceeded blocks =>
    have same := counter_frame world elapsed
      (.set tier.block (.integer (time + tier.blockDuration)) ttl) different
    have counted := known blocks
    apply guarded.set now clock
    · exact fun _ => Int.le_of_eq same.symm
    · generalize (exec elapsed world (.valkey (.set tier.block _ ttl))).1 = answer
      rcases answer with e | ⟨⟩ <;> trivial
    · exact fun later force => Or.inl ⟨blocks, by omega⟩
  | reset time totalHits exceeded blocks =>
    have same := block_frame world elapsed (.del tier.hits) different.symm
    apply guarded.set now clock
    · omega
    · trivial
    · exact fun later force => Or.inr ⟨⟨_, inForce_earlier force rfl same⟩, False.elim⟩

/-! ### Increments that will report blocked -/

variable (tier) in
def Doomed : Phase → Prop
  | .refused | .blocking | .reset | .failed => True
  | .counted _ totalHits => tier.limit < totalHits
  | _ => False

theorem Doomed.next {phase : Phase} {op : Call String} (doomed : tier.Doomed phase)
    (allowed : tier.Allowed phase op) (answer : CallResult op) :
    tier.Doomed (next phase op answer) := by
  cases allowed with
  | clock | look | release | count => exact doomed.elim
  | hits => cases answer <;> trivial
  | remaining time totalHits =>
    cases answer with
    | error e => trivial
    | ok seconds => exact doomed
  | block | reset => cases answer <;> trivial

theorem isBlocked_of_doomed {record : ValkeyThrottlerStorageRecord} {phase : Phase}
    (doomed : tier.Doomed phase) (reported : tier.Reported (.ok record) phase) :
    record.isBlocked = true := by
  by_contra notBlocked
  simp only [Reported, notBlocked] at reported
  obtain ⟨now, totalHits, rfl, atMost⟩ := reported
  change (tier.limit : Int) < totalHits at doomed
  omega

variable (tier) in
/-- The calls that decide what an increment reports. -/
def Decides (op : Call String) : Prop :=
  op = .valkey (.get tier.block) ∨ op = .valkey (.incrWithTtl tier.hits tier.ttlSeconds)

/-- An increment that decides while a block is in force will report blocked. -/
theorem doomed_of_inForce (positive : 0 < tier.ttlSeconds) {memory : List Phase} {i : Nat}
    {phase : Phase} {op : Call String} (guarded : tier.Guarded world memory)
    (now : memory[i]? = some phase) (allowed : tier.Allowed phase op) (decides : tier.Decides op)
    (unexpired : tier.Unexpired elapsed world) (force : tier.inForce elapsed world = true) :
    tier.Doomed (next phase op (exec elapsed world op).1) := by
  have member := List.mem_of_getElem? now
  cases allowed with
  | look time =>
    rw [look_inForce (guarded.1 _ member) force]
    trivial
  | count time =>
    rcases guarded.2 elapsed force with ⟨-, exceeded⟩ | nobody
    · obtain ⟨answer, -⟩ | ⟨⟨e, answer⟩, -⟩ := counter_count positive unexpired
      · rw [answer]
        change (tier.limit : Int) < tier.counter world + 1
        omega
      · rw [answer]
        trivial
    · exact (nobody _ member trivial).elim
  | hits =>
    rcases decides with same | same
    · cases same
    · cases same
  | clock | release | remaining | block | reset =>
    rcases decides with same | same
    · cases same
    · cases same

/-- The increments that remember where they are, at every moment of a window. -/
theorem window_invariant (positive : 0 < tier.ttlSeconds)
    (fresh : world.store.entries tier.hits = none) (number : Nat) {schedule : List (Nat × Nat)}
    (window : Pool.EachTurn exec tier.Unexpired schedule (tier.increments world number)) :
    ∃ memory, let after := (tier.increments world number).run exec schedule
      tier.Bounded after.state memory ∧ tier.Guarded after.state memory ∧
        List.Forall₂ (tier.protocol.Reaches tier.Reported) memory after.threads := by
  have reaches : List.Forall₂ (tier.protocol.Reaches tier.Reported)
      (List.replicate number .begun) (tier.increments world number).threads :=
    List.forall₂_iff_get.mpr ⟨by simp [increments], fun k _ _ => by
      simpa [increments] using tier.reaches_increment positive⟩
  have follow : Pool.Follow tier.protocol (List.replicate number .begun)
      (tier.increments world number) :=
    reaches.imp fun _ _ reach => reach.follows
  have meets := Pool.meets_of_eachTurn exec tier.protocol window (List.replicate number .begun)
  have bounded : tier.Bounded world (List.replicate number .begun) := by
    simp [Bounded, counter, fresh, within, resets]
  have guarded : tier.Guarded world (List.replicate number .begun) := by
    constructor
    · intro phase member
      obtain ⟨-, rfl⟩ := List.mem_replicate.mp member
      trivial
    · intro elapsed force
      right
      intro phase member
      obtain ⟨-, rfl⟩ := List.mem_replicate.mp member
      exact id
  exact ⟨_, (Pool.run_invariant (bounded_preserved positive) bounded follow meets).1,
    (Pool.run_invariant (guarded_preserved positive) guarded follow meets).1,
    Pool.run_reaches reaches schedule⟩

variable (tier) in
theorem doomed_preserved (i : Nat) :
    Pool.Preserves exec tier.protocol (fun _ _ _ _ => True)
      (fun _ memory => ∀ phase, memory[i]? = some phase → tier.Doomed phase) := by
  intro elapsed world memory j phase op now doomed allowed _ phase' later
  rw [Pool.getElem?_set_of_some now] at later
  split at later
  · rename_i same
    cases later
    exact (doomed phase (same ▸ now)).next allowed _
  · exact doomed phase' later

/-- An increment that decides while a block is in force does not report otherwise,
whatever happens until it is done. -/
theorem isBlocked_of_inForce (positive : 0 < tier.ttlSeconds) {memory : List Phase}
    {pool : Increments} (guarded : tier.Guarded pool.state memory)
    (reaches : List.Forall₂ (tier.protocol.Reaches tier.Reported) memory pool.threads)
    {turn : Nat × Nat} (unexpired : tier.Unexpired turn.2 pool.state)
    {op : Call String} {rest : CallResult op → Program (Call String) _ _}
    (about : pool.threads[turn.1]? = some (.call op rest)) (decides : tier.Decides op)
    (force : tier.inForce turn.2 pool.state = true) (late : List (Nat × Nat))
    {record : ValkeyThrottlerStorageRecord}
    (done : (pool.run exec (turn :: late)).threads[turn.1]? = some (.done (.ok record))) :
    record.isBlocked = true := by
  obtain ⟨short, at_⟩ := List.getElem?_eq_some_iff.mp about
  have short' : turn.1 < memory.length := by rw [reaches.length_eq]; exact short
  have now : memory[turn.1]? = some memory[turn.1] := List.getElem?_eq_getElem short'
  have reach := reaches.get short' short
  simp only [List.get_eq_getElem, at_] at reach
  have doomed := doomed_of_inForce positive guarded now reach.1 decides unexpired force
  have after : Pool.recallTurn exec tier.protocol memory pool turn =
      memory.set turn.1 (next memory[turn.1] op (exec turn.2 pool.state op).1) := by
    simp only [Pool.recallTurn, about, now]
    rfl
  have begins : ∀ phase, (Pool.recallTurn exec tier.protocol memory pool turn)[turn.1]? = some phase →
      tier.Doomed phase := by
    intro phase found
    rw [after, Pool.getElem?_set_of_some now, if_pos rfl] at found
    cases found
    exact doomed
  have reaches' : List.Forall₂ _ (Pool.recallTurn exec tier.protocol memory pool turn)
      (pool.advance exec turn).threads := Pool.advance_reaches reaches turn
  have ends := Pool.run_invariant_always (doomed_preserved tier turn.1) begins
    (reaches'.imp fun _ _ reach => reach.follows) late
  have final : List.Forall₂ _ _ ((pool.advance exec turn).run exec late).threads :=
    Pool.run_reaches reaches' late
  rw [Pool.run_cons] at done
  obtain ⟨short'', at'⟩ := List.getElem?_eq_some_iff.mp done
  have long : turn.1 < (Pool.recallAll exec tier.protocol
      (Pool.recallTurn exec tier.protocol memory pool turn) (pool.advance exec turn) late).length := by
    rw [final.length_eq]
    exact short''
  exact isBlocked_of_doomed (ends.1 _ (List.getElem?_eq_getElem long))
    (Pool.post_of_done final (List.getElem?_eq_getElem long) done)

/-! ### What is reported -/

theorem countP_eq_sum {α : Type} (p : α → Bool) (threads : List α) :
    (threads.countP p : Int) = (threads.map fun thread => if p thread then 1 else 0).sum := by
  induction threads with
  | nil => rfl
  | cons thread rest ih =>
    rw [List.countP_cons, List.map_cons, List.sum_cons, ← ih]
    split <;> omega

/-- Threads that count for less than their phases, one by one and so in all. -/
theorem countP_le_sum {α : Type} {R : Phase → α → Prop} {weight : Phase → Int} {p : α → Bool}
    {memory : List Phase} {threads : List α} (related : List.Forall₂ R memory threads)
    (each : ∀ phase thread, R phase thread → (if p thread then 1 else 0) ≤ weight phase) :
    (threads.countP p : Int) ≤ (memory.map weight).sum := by
  rw [countP_eq_sum]
  refine List.Forall₂.sum_le_sum ?_
  rw [List.forall₂_map_left_iff, List.forall₂_map_right_iff]
  exact related.flip.imp fun thread phase relates => each phase thread relates

theorem sum_le_countP {α : Type} {R : Phase → α → Prop} {weight : Phase → Int} {p : α → Bool}
    {memory : List Phase} {threads : List α} (related : List.Forall₂ R memory threads)
    (each : ∀ phase thread, R phase thread → weight phase ≤ (if p thread then 1 else 0)) :
    (memory.map weight).sum ≤ (threads.countP p : Int) := by
  rw [countP_eq_sum]
  refine List.Forall₂.sum_le_sum ?_
  rw [List.forall₂_map_left_iff, List.forall₂_map_right_iff]
  exact related.imp each

theorem reported_false_le {memory : List Phase} {pool : Increments}
    (reaches : List.Forall₂ (tier.protocol.Reaches tier.Reported) memory pool.threads) :
    (reported false pool : Int) ≤ (memory.map tier.within).sum := by
  apply countP_le_sum reaches
  intro phase thread reach
  split
  · rename_i reports
    cases thread with
    | call op rest => cases reports
    | done result =>
      cases result with
      | error e => cases reports
      | ok record =>
        have notBlocked : record.isBlocked = false := beq_iff_eq.mp reports
        change tier.Reported (.ok record) phase at reach
        simp only [Reported, notBlocked] at reach
        obtain ⟨now, totalHits, rfl, atMost⟩ := reach
        simp [within, atMost]
  · exact within_nonneg tier phase

theorem resets_le_reported_true {memory : List Phase} {pool : Increments}
    (reaches : List.Forall₂ (tier.protocol.Reaches tier.Reported) memory pool.threads) :
    (memory.map resets).sum ≤ (reported true pool : Int) := by
  apply sum_le_countP reaches
  intro phase thread reach
  cases phase with
  | reset =>
    cases thread with
    | call op rest => cases reach.1
    | done result =>
      cases result with
      | error e => cases reach
      | ok record =>
        have blocked : record.isBlocked = true := isBlocked_of_doomed (show tier.Doomed .reset from trivial) reach
        simp [hasReported, blocked, resets]
  | _ =>
    simp only [resets]
    split <;> decide

theorem ttlSeconds_pos (positive : 0 < tier.ttl) : 0 < tier.ttlSeconds := by
  simp only [ttlSeconds, toSeconds]
  omega

end Tier

/-- In one window of a key, however its increments interleave: at most `limit` of them
report not blocked, or that many again for each one that reports blocked where that
deletes the counter; and an increment that looks at the marker or counts while a block
is in force reports blocked. -/
theorem increments_within_limit (tier : Tier) (ttl : 0 < tier.ttl) (world : ValkeyWorld String)
    (fresh : world.store.entries tier.hits = none) (number : Nat) (schedule : List (Nat × Nat))
    (window : Pool.EachTurn exec tier.Unexpired schedule (tier.increments world number)) :
    (0 < tier.blockDuration →
      reported false ((tier.increments world number).run exec schedule) ≤ tier.limit) ∧
    (tier.blockDuration ≤ 0 →
      reported false ((tier.increments world number).run exec schedule) ≤
        tier.limit * (1 + reported true ((tier.increments world number).run exec schedule))) ∧
    ∀ early turn late, schedule = early ++ turn :: late →
      ∀ op rest, ((tier.increments world number).run exec early).threads[turn.1]? =
          some (.call op rest) → tier.Decides op →
        tier.inForce turn.2 ((tier.increments world number).run exec early).state = true →
        ∀ record, ((tier.increments world number).run exec schedule).threads[turn.1]? =
          some (.done (.ok record)) → record.isBlocked = true := by
  have positive := Tier.ttlSeconds_pos ttl
  obtain ⟨memory, bounded, -, reaches⟩ := Tier.window_invariant positive fresh number window
  have notBlocked := Tier.reported_false_le reaches
  have resets := Tier.resets_le_reported_true reaches
  obtain ⟨-, never, bound⟩ := bounded
  refine ⟨fun blocks => ?_, fun zero => ?_, ?_⟩
  · rw [never blocks] at bound
    omega
  · have grows : (tier.limit : Int) * (memory.map Tier.resets).sum ≤
        tier.limit * reported true ((tier.increments world number).run exec schedule) :=
      Int.mul_le_mul_of_nonneg_left resets (by omega)
    have : (reported false ((tier.increments world number).run exec schedule) : Int) ≤
        tier.limit * (1 + reported true ((tier.increments world number).run exec schedule)) := by
      rw [Int.mul_add, Int.mul_one]
      omega
    exact_mod_cast this
  · rintro early turn late rfl op rest about decides force record done
    obtain ⟨before, now⟩ := (Pool.eachTurn_append exec).mp window
    obtain ⟨memory, -, guarded, reaches⟩ := Tier.window_invariant positive fresh number before
    rw [Pool.run_append] at done
    exact Tier.isBlocked_of_inForce positive guarded reaches now.1 about decides force late done

/-- One increment after the other on an empty store, `calls` store calls or clock reads each. -/
def inTurn (calls : List Nat) : List (Nat × Nat) :=
  calls.zipIdx.flatMap fun (number, i) => List.replicate number (i, 1)

def emptyWorld : ValkeyWorld String := ⟨0, Valkey.empty⟩

theorem increments_within_limit_third :
    reported false ((Tier.mk "ip" 60000 1 30000 "auth").increments emptyWorld 3 |>.run exec
      (inTurn [3, 5, 3])) ≤ 1 :=
  (increments_within_limit ⟨"ip", 60000, 1, 30000, "auth"⟩ (by decide) emptyWorld rfl 3
    (inTurn [3, 5, 3]) (by decide)).1 (by decide)

/-- Without a block duration the second of three increments, over the limit of one,
deletes the counter, and the third is within the limit again. -/
theorem third_increment_not_blocked :
    Pool.EachTurn exec (Tier.mk "ip" 60000 1 0 "auth").Unexpired (inTurn [3, 5, 3])
      ((Tier.mk "ip" 60000 1 0 "auth").increments emptyWorld 3) ∧
    ¬ reported false ((Tier.mk "ip" 60000 1 0 "auth").increments emptyWorld 3 |>.run exec
      (inTurn [3, 5, 3])) ≤ 1 := by
  decide

end Throttler
