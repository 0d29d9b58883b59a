import Hakawi.Common.Exceptions
import Hakawi.Common.Platform

/-!
# The Valkey store

The commands that `ValkeyService` sends, each one atomic. A key holds a text or a
set, and may have a time, in milliseconds, from which on it is gone. Commands
against the wrong kind of value throw.
-/

namespace Common

/-- A stored text, as far as its readers can tell texts apart. -/
inductive Text where
  /-- The decimal digits of an integer. -/
  | integer (value : Int)
  /-- The JSON of any other value. -/
  | json (value : Json)
  /-- A text that is not JSON. -/
  | other (text : String)

namespace Text

/-- `JSON.parse`, `none` when it throws. -/
def parseJson : Text → Option Json
  | integer value => some (.int value)
  | json value => some value
  | other _ => none

/-- `Number.parseInt(text, 10)` of the counters and times kept as integers, `none`
when it is not finite. -/
def parseInt : Text → Option Int
  | integer value => some value
  | _ => none

end Text

/-- `K` is the type of keys. -/
inductive Content (K : Type) where
  | text (value : Text)
  | members (keys : List K)

structure Entry (K : Type) where
  content : Content K
  expiresAt : Option Int

structure Valkey (K : Type) where
  entries : K → Option (Entry K)

namespace Valkey
variable {K : Type} [DecidableEq K] (store : Valkey K) (now : Int)

def empty : Valkey K := ⟨fun _ => none⟩

/-- What a command finds under a key. -/
def live (key : K) : Option (Entry K) :=
  (store.entries key).filter fun entry => entry.expiresAt.all fun time => now < time

def put (key : K) (entry : Option (Entry K)) : Valkey K :=
  ⟨Function.update store.entries key entry⟩

def wrongType : Failure :=
  .error "WRONGTYPE Operation against a key holding the wrong kind of value"

def get (key : K) : Except Failure (Option Text) :=
  match store.live now key with
  | none => .ok none
  | some ⟨.text value, _⟩ => .ok (some value)
  | some ⟨.members _, _⟩ => .error wrongType

/-- `SETEX` with a time to live, `SET` without one or with one of zero. -/
def set (key : K) (value : Text) (ttl : Option Int) : Except Failure (Valkey K) :=
  match ttl with
  | none => .ok (store.put key (some ⟨.text value, none⟩))
  | some seconds =>
    if seconds = 0 then .ok (store.put key (some ⟨.text value, none⟩))
    else if seconds < 0 then .error (.error "ERR invalid expire time in 'setex' command")
    else .ok (store.put key (some ⟨.text value, some (now + seconds * 1000)⟩))

def del (key : K) : Valkey K := store.put key none

def exists' (key : K) : Bool := (store.live now key).isSome

def sadd (key member : K) : Except Failure (Valkey K) :=
  match store.live now key with
  | none => .ok (store.put key (some ⟨.members [member], none⟩))
  | some ⟨.members keys, time⟩ =>
    .ok (store.put key (some ⟨.members (if member ∈ keys then keys else keys ++ [member]), time⟩))
  | some ⟨.text _, _⟩ => .error wrongType

/-- A set that loses its last member is gone. -/
def srem (key member : K) : Except Failure (Valkey K) :=
  match store.live now key with
  | none => .ok store
  | some ⟨.members keys, time⟩ =>
    let rest := keys.filter (· ≠ member)
    .ok (store.put key (if rest = [] then none else some ⟨.members rest, time⟩))
  | some ⟨.text _, _⟩ => .error wrongType

def smembers (key : K) : Except Failure (List K) :=
  match store.live now key with
  | none => .ok []
  | some ⟨.members keys, _⟩ => .ok keys
  | some ⟨.text _, _⟩ => .error wrongType

def expire (key : K) (seconds : Int) : Valkey K :=
  match store.live now key with
  | none => store
  | some entry => store.put key (some { entry with expiresAt := some (now + seconds * 1000) })

def incr (key : K) : Except Failure (Int × Valkey K) :=
  match store.live now key with
  | none => .ok (1, store.put key (some ⟨.text (.integer 1), none⟩))
  | some ⟨.text (.integer value), time⟩ =>
    .ok (value + 1, store.put key (some ⟨.text (.integer (value + 1)), time⟩))
  | some ⟨.text _, _⟩ => .error (.error "ERR value is not an integer or out of range")
  | some ⟨.members _, _⟩ => .error wrongType

/-- `SET key 0 EX ttl NX` and `INCR key` in one script. -/
def incrWithTtl (key : K) (ttlSeconds : Int) : Except Failure (Int × Valkey K) :=
  if ttlSeconds ≤ 0 then .error (.error "ERR invalid expire time in 'set' command")
  else match store.live now key with
    | none => (store.put key (some ⟨.text (.integer 0), some (now + ttlSeconds * 1000)⟩)).incr now key
    | some _ => store.incr now key

/-- The seconds a key still has, rounded; -1 without a limit, -2 without the key. -/
def ttl (key : K) : Int :=
  match store.live now key with
  | none => -2
  | some ⟨_, none⟩ => -1
  | some ⟨_, some time⟩ => (time - now + 500) / 1000

end Valkey

/-- One command, as a call of a program. -/
inductive Command (K : Type) where
  | get (key : K)
  | set (key : K) (value : Text) (ttl : Option Int)
  | del (key : K)
  | exists' (key : K)
  | sadd (key member : K)
  | srem (key member : K)
  | smembers (key : K)
  | expire (key : K) (seconds : Int)
  | incr (key : K)
  | incrWithTtl (key : K) (ttlSeconds : Int)
  | ttl (key : K)

namespace Command
variable {K : Type}

/-- The only key a command reads or writes. -/
def key : Command K → K
  | get key | set key _ _ | del key | exists' key | sadd key _ | srem key _ | smembers key
  | expire key _ | incr key | incrWithTtl key _ | ttl key => key

def Answer : Command K → Type
  | get _ => Option Text
  | exists' _ => Bool
  | set _ _ _ | del _ | sadd _ _ | srem _ _ | expire _ _ => Unit
  | smembers _ => List K
  | incr _ | incrWithTtl _ _ | ttl _ => Int

end Command

namespace Valkey
variable {K : Type} [DecidableEq K]

/-- The answer of a write, and the store it leaves. -/
def written (store : Valkey K) : Except Failure (Valkey K) → Except Failure Unit × Valkey K
  | .ok store' => (.ok (), store')
  | .error e => (.error e, store)

def counted (store : Valkey K) : Except Failure (Int × Valkey K) → Except Failure Int × Valkey K
  | .ok (value, store') => (.ok value, store')
  | .error e => (.error e, store)

/-- What a command answers at a time, and the store it leaves. -/
def exec (now : Int) (store : Valkey K) :
    (command : Command K) → Except Failure command.Answer × Valkey K
  | .get key => (store.get now key, store)
  | .set key value ttl => store.written (store.set now key value ttl)
  | .del key => (.ok (), store.del key)
  | .exists' key => (.ok (store.exists' now key), store)
  | .sadd key member => store.written (store.sadd now key member)
  | .srem key member => store.written (store.srem now key member)
  | .smembers key => (store.smembers now key, store)
  | .expire key seconds => (.ok (), store.expire now key seconds)
  | .incr key => store.counted (store.incr now key)
  | .incrWithTtl key ttlSeconds => store.counted (store.incrWithTtl now key ttlSeconds)
  | .ttl key => (.ok (store.ttl now key), store)

section Entries
variable {store : Valkey K} {now : Int} {key other : K}

@[simp] theorem put_entries_self (entry : Option (Entry K)) :
    (store.put key entry).entries key = entry := Function.update_self ..

theorem put_entries_ne (different : other ≠ key) (entry : Option (Entry K)) :
    (store.put key entry).entries other = store.entries other :=
  Function.update_of_ne different ..

@[simp] theorem put_put (first second : Option (Entry K)) :
    (store.put key first).put key second = store.put key second := by
  simp [put]

omit [DecidableEq K] in
theorem live_eq_some {entry : Entry K} :
    store.live now key = some entry ↔
      store.entries key = some entry ∧ ∀ time ∈ entry.expiresAt, now < time := by
  simp [live, Option.all_eq_true]

theorem set_frame (different : other ≠ key) (value : Text) (ttl : Option Int) :
    (store.written (store.set now key value ttl)).2.entries other = store.entries other := by
  cases ttl with
  | none => exact put_entries_ne different _
  | some seconds =>
    simp only [set]
    split
    · exact put_entries_ne different _
    · split
      · rfl
      · exact put_entries_ne different _

theorem incr_frame (different : other ≠ key) {result : Int × Valkey K}
    (counts : store.incr now key = .ok result) :
    result.2.entries other = store.entries other := by
  rw [incr] at counts
  split at counts
  all_goals cases counts
  all_goals exact put_entries_ne different _

/-- A command leaves every key but its own as it is. -/
theorem exec_frame (command : Command K) (different : other ≠ command.key) :
    (store.exec now command).2.entries other = store.entries other := by
  cases command with
  | get | exists' | smembers | ttl => rfl
  | set key value ttl => exact set_frame different value ttl
  | del key => exact put_entries_ne different _
  | sadd key member =>
    rw [exec, sadd]
    split
    · exact put_entries_ne different _
    · exact put_entries_ne different _
    · rfl
  | srem key member =>
    rw [exec, srem]
    split
    · rfl
    · exact put_entries_ne different _
    · rfl
  | expire key seconds =>
    rw [exec, expire]
    split
    · rfl
    · exact put_entries_ne different _
  | incr key =>
    rw [exec]
    cases counts : store.incr now key with
    | error e => rfl
    | ok result => exact incr_frame different counts
  | incrWithTtl key ttlSeconds =>
    rw [exec, incrWithTtl]
    split
    · rfl
    · split
      · rename_i absent
        cases counts : (store.put key (some ⟨.text (.integer 0),
          some (now + ttlSeconds * 1000)⟩)).incr now key with
        | error e => rfl
        | ok result =>
          exact (incr_frame different counts).trans (put_entries_ne different _)
      · cases counts : store.incr now key with
        | error e => rfl
        | ok result => exact incr_frame different counts

theorem incr_congr {first second : Valkey K} (alive : first.live now key = second.live now key) :
    (∃ value entry, first.incr now key = .ok (value, first.put key entry) ∧
      second.incr now key = .ok (value, second.put key entry)) ∨
    ∃ e, first.incr now key = .error e ∧ second.incr now key = .error e := by
  rw [incr, incr, alive]
  rcases second.live now key with _ | ⟨⟨value | _ | _⟩ | _, time⟩
  · exact Or.inl ⟨_, _, rfl, rfl⟩
  · exact Or.inl ⟨_, _, rfl, rfl⟩
  all_goals exact Or.inr ⟨_, rfl, rfl⟩

/-- What a command answers and leaves depends on its own key only. -/
theorem exec_congr {store' : Valkey K} (command : Command K)
    (same : store'.entries command.key = store.entries command.key) :
    (store'.exec now command).1 = (store.exec now command).1 ∧
      (store'.exec now command).2.entries command.key =
        (store.exec now command).2.entries command.key := by
  have alive : store'.live now command.key = store.live now command.key := by
    rw [live, live, same]
  have counts {key : K} {first second : Except Failure (Int × Valkey K)}
      (same : store'.entries key = store.entries key)
      (either : (∃ value entry, first = .ok (value, store'.put key entry) ∧
        second = .ok (value, store.put key entry)) ∨ ∃ e, first = .error e ∧ second = .error e) :
      (store'.counted first).1 = (store.counted second).1 ∧
        (store'.counted first).2.entries key = (store.counted second).2.entries key := by
    rcases either with ⟨value, entry, rfl, rfl⟩ | ⟨e, rfl, rfl⟩
    · exact ⟨rfl, by simp only [counted, put_entries_self]⟩
    · exact ⟨rfl, same⟩
  have writes {key : K} {first second : Except Failure (Valkey K)} (same : store'.entries key =
      store.entries key) (either : (∃ entry, first = .ok (store'.put key entry) ∧
        second = .ok (store.put key entry)) ∨ (first = .ok store' ∧ second = .ok store) ∨
          ∃ e, first = .error e ∧ second = .error e) :
      (store'.written first).1 = (store.written second).1 ∧
        (store'.written first).2.entries key = (store.written second).2.entries key := by
    rcases either with ⟨entry, rfl, rfl⟩ | ⟨rfl, rfl⟩ | ⟨e, rfl, rfl⟩
    · exact ⟨rfl, by simp only [written, put_entries_self]⟩
    · exact ⟨rfl, same⟩
    · exact ⟨rfl, same⟩
  cases command with
  | get key =>
    have read : store'.get now key = store.get now key := by
      rw [get, get, show store'.live now key = store.live now key from alive]
    exact ⟨read, same⟩
  | smembers key =>
    have read : store'.smembers now key = store.smembers now key := by
      rw [smembers, smembers, show store'.live now key = store.live now key from alive]
    exact ⟨read, same⟩
  | exists' key => exact ⟨congrArg (fun found => Except.ok (Option.isSome found)) alive, same⟩
  | ttl key =>
    have read : store'.ttl now key = store.ttl now key := by
      rw [ttl, ttl, show store'.live now key = store.live now key from alive]
    exact ⟨congrArg Except.ok read, same⟩
  | del key => exact ⟨rfl, by simp only [exec, del, Command.key, put_entries_self]⟩
  | incr key => exact counts same (incr_congr alive)
  | set key value ttl =>
    refine writes same ?_
    cases ttl with
    | none => exact Or.inl ⟨_, rfl, rfl⟩
    | some seconds =>
      rw [set, set]
      split
      · exact Or.inl ⟨_, rfl, rfl⟩
      · split
        · exact Or.inr (Or.inr ⟨_, rfl, rfl⟩)
        · exact Or.inl ⟨_, rfl, rfl⟩
  | sadd key member =>
    refine writes same ?_
    rw [sadd, sadd, show store'.live now key = store.live now key from alive]
    rcases store.live now key with _ | ⟨_ | _, time⟩
    · exact Or.inl ⟨_, rfl, rfl⟩
    · exact Or.inr (Or.inr ⟨_, rfl, rfl⟩)
    · exact Or.inl ⟨_, rfl, rfl⟩
  | srem key member =>
    refine writes same ?_
    rw [srem, srem, show store'.live now key = store.live now key from alive]
    rcases store.live now key with _ | ⟨_ | _, time⟩
    · exact Or.inr (Or.inl ⟨rfl, rfl⟩)
    · exact Or.inr (Or.inr ⟨_, rfl, rfl⟩)
    · exact Or.inl ⟨_, rfl, rfl⟩
  | expire key seconds =>
    refine ⟨rfl, ?_⟩
    dsimp only [exec, expire, Command.key] at same alive ⊢
    rw [alive]
    rcases store.live now key with _ | entry
    · exact same
    · simp only [put_entries_self]
  | incrWithTtl key ttlSeconds =>
    refine counts same ?_
    rw [incrWithTtl, incrWithTtl, show store'.live now key = store.live now key from alive]
    split
    · exact Or.inr ⟨_, rfl, rfl⟩
    · rcases store.live now key with _ | entry
      · have alive (entry : Entry K) : (store'.put key (some entry)).live now key =
            (store.put key (some entry)).live now key := by
          rw [live, live, put_entries_self, put_entries_self]
        have counted := incr_congr (alive ⟨.text (.integer 0), some (now + ttlSeconds * 1000)⟩)
        simp only [put_put] at counted
        exact counted
      · exact incr_congr alive

variable (store now key) in
/-- A counter that exists and has not expired goes on; an absent one starts at one
with its time to live; a key that holds anything else throws. -/
theorem exec_incrWithTtl {ttlSeconds : Int} (positive : 0 < ttlSeconds) :
    (∃ value time, store.exec now (.incrWithTtl key ttlSeconds) =
        (.ok value, store.put key (some ⟨.text (.integer value), time⟩)) ∧
      (store.live now key = none ∧ value = 1 ∧ time = some (now + ttlSeconds * 1000) ∨
        store.live now key = some ⟨.text (.integer (value - 1)), time⟩)) ∨
    ∃ e, store.exec now (.incrWithTtl key ttlSeconds) = (.error e, store) := by
  have enough : ¬ ttlSeconds ≤ 0 := by omega
  cases found : store.live now key with
  | none =>
    left
    have alive : (store.put key (some ⟨.text (.integer 0),
        some (now + ttlSeconds * 1000)⟩)).live now key =
        some ⟨.text (.integer 0), some (now + ttlSeconds * 1000)⟩ := by
      simp [live_eq_some]
      omega
    exact ⟨1, some (now + ttlSeconds * 1000),
      by simp only [exec, counted, incrWithTtl, enough, found, incr, alive, put_put, if_false]; rfl,
      by simp⟩
  | some entry =>
    rcases entry with ⟨⟨value | _ | _⟩ | _, time⟩
    · exact Or.inl ⟨value + 1, time, by
        simp only [exec, counted, incrWithTtl, enough, found, incr, if_false]; rfl, by simp⟩
    all_goals
      exact Or.inr ⟨_, by
        simp only [exec, counted, incrWithTtl, enough, found, incr, if_false]; rfl⟩

end Entries

section Keys

/-- Keys of two kinds differ when the names of the kinds do. -/
theorem append_ne_append {n : Nat} {kind kind' : String}
    (long : n ≤ kind.toList.length) (long' : n ≤ kind'.toList.length)
    (differ : kind.toList.take n ≠ kind'.toList.take n) (rest rest' : String) :
    kind ++ rest ≠ kind' ++ rest' := by
  intro same
  have letters := congrArg (fun text => text.toList.take n) same
  simp only [String.toList_append, List.take_append_of_le_length long,
    List.take_append_of_le_length long'] at letters
  exact differ letters

end Keys
end Valkey
end Common
