import Hakawi.Effects.Pool

/-!
# Read, change, write

Each of many threads reads one value, and writes what its update makes of it. As long as a
thread writes onto the value that it read, the value is what the updates make of the first one,
applied in the order of the writes.
-/

namespace Effects

/-- How far a thread has come with its update. -/
inductive Stage (U A : Type) where
  | waiting (update : U)
  | holding (update : U) (seen : A)
  | written (update : U)

namespace Stage
variable {U A S : Type}

def update : Stage U A → U
  | waiting u | holding u _ | written u => u

/-- The update, once it is written. -/
def landed : Stage U A → Option U
  | written u => some u
  | _ => none

/-- The value after the updates, one after the other. -/
def applied (apply : U → A → A) (order : List U) (first : A) : A :=
  order.foldl (fun value u => apply u value) first

variable (apply : U → A → A) (value : S → A)

/-- The value is what the written updates make of the first one, in some order. -/
def Serial (first : A) (s : S) (memory : List (Stage U A)) : Prop :=
  ∃ order : List U, order.Perm (memory.filterMap landed) ∧ value s = applied apply order first

variable {apply value} {first : A} {s s' : S} {memory : List (Stage U A)} {i : Nat}
  {stage : Stage U A}

/-- A thread that has not written anything makes no difference. -/
theorem filterMap_landed_set (remembers : memory[i]? = some stage) (fresh : stage.landed = none)
    (stage' : Stage U A) :
    ((memory.set i stage').filterMap landed).Perm
      (memory.filterMap landed ++ stage'.landed.toList) := by
  obtain ⟨within, rfl⟩ := List.getElem?_eq_some_iff.mp remembers
  rw [List.set_eq_take_append_cons_drop, if_pos within]
  have whole : memory.filterMap landed =
      (memory.take i).filterMap landed ++ (memory.drop (i + 1)).filterMap landed := by
    conv_lhs => rw [← List.take_append_drop i memory, List.drop_eq_getElem_cons within]
    rw [List.filterMap_append, List.filterMap_cons_none fresh]
  rw [whole, List.filterMap_append, List.append_assoc]
  refine List.Perm.append_left _ ?_
  cases landed' : stage'.landed with
  | none => simp [List.filterMap_cons_none landed']
  | some u =>
    rw [List.filterMap_cons_some landed']
    exact (List.perm_append_singleton u _).symm

theorem Serial.read {u : U} {seen : A} (serial : Serial apply value first s memory)
    (remembers : memory[i]? = some (.waiting u)) (kept : value s' = value s) :
    Serial apply value first s' (memory.set i (.holding u seen)) := by
  obtain ⟨order, perm, same⟩ := serial
  have still := filterMap_landed_set remembers rfl (.holding u seen)
  exact ⟨order, perm.trans (by simpa [landed] using still.symm), kept.trans same⟩

theorem Serial.write {u : U} (serial : Serial apply value first s memory)
    (remembers : memory[i]? = some (.holding u (value s)))
    (writes : value s' = apply u (value s)) :
    Serial apply value first s' (memory.set i (.written u)) := by
  obtain ⟨order, perm, same⟩ := serial
  have grown := filterMap_landed_set remembers rfl (.written u)
  refine ⟨order ++ [u], (perm.append_right _).trans grown.symm, ?_⟩
  rw [writes, same, applied, applied, List.foldl_append]
  rfl

theorem update_set (remembers : memory[i]? = some stage) {stage' : Stage U A}
    (same : stage'.update = stage.update) :
    (memory.set i stage').map update = memory.map update := by
  rw [List.map_set, same]
  exact Pool.set_of_some (by rw [List.getElem?_map, remembers]; rfl)

/-- When all updates are written, none is left out. -/
theorem landed_of_written (all : ∀ stage ∈ memory, ∃ u, stage = written u) :
    memory.filterMap landed = memory.map update := by
  induction memory with
  | nil => rfl
  | cons stage rest ih =>
    obtain ⟨⟨u, rfl⟩, others⟩ := List.forall_mem_cons.mp all
    have first : landed (written u : Stage U A) = some u := rfl
    rw [List.filterMap_cons_some first, ih others]
    rfl

end Stage
end Effects
