import Mathlib.Data.List.Perm.Basic
import Mathlib.Data.List.Nodup

/-!
# Tables whose rows carry their primary key

A table is a list of rows with pairwise different keys, the key being a part of the row. Two
tables of the same rows may have different keys: a copy from one to the other keeps what the
target already has under a key.
-/

namespace Store

structure Keyed (ρ : Type) {κ : Type} (key : ρ → κ) where
  rows : List ρ
  unique : (rows.map key).Nodup

section Columns
variable {ρ κ : Type} {column : ρ → κ} {rows : List ρ}

/-- A row is added whose value in the column is new. -/
theorem nodup_append (distinct : (rows.map column).Nodup) {row : ρ}
    (absent : column row ∉ rows.map column) : ((rows ++ [row]).map column).Nodup := by
  rw [List.map_append]
  refine List.Nodup.append distinct (List.nodup_singleton _) fun k old new => ?_
  rw [List.map_singleton, List.mem_singleton] at new
  exact absent (new ▸ old)

/-- Rows are rewritten that keep their value in the column. -/
theorem map_rewrite (p : ρ → Prop) [DecidablePred p] {f : ρ → ρ}
    (keeps : ∀ r, column (f r) = column r) :
    (rows.map fun r => if p r then f r else r).map column = rows.map column := by
  rw [List.map_map]
  refine List.map_congr_left fun r _ => ?_
  rw [Function.comp_apply]
  split
  · exact keeps r
  · rfl

end Columns

namespace Keyed
variable {ρ κ κ' : Type} {key : ρ → κ} {key' : ρ → κ'}

def size (t : Keyed ρ key) : Nat := t.rows.length

theorem nodup (t : Keyed ρ key) : t.rows.Nodup := List.Nodup.of_map key t.unique

/-- Every row of the one table is a row of the other, all columns alike. -/
def Within (t : Keyed ρ key) (u : Keyed ρ key') : Prop := t.rows ⊆ u.rows

instance [DecidableEq ρ] (t : Keyed ρ key) (u : Keyed ρ key') : Decidable (t.Within u) :=
  inferInstanceAs (Decidable (t.rows ⊆ u.rows))

/-- A table inside another of the same size has all of its rows. -/
theorem Within.symm_of_size {t : Keyed ρ key} {u : Keyed ρ key'} (within : t.Within u)
    (same : u.size = t.size) : u.Within t := by
  have sub := List.subperm_of_subset t.nodup within
  have perm := sub.perm_of_length_le (Nat.le_of_eq same)
  exact perm.symm.subset

variable [DecidableEq κ]

/-- `INSERT ... ON CONFLICT (key) DO NOTHING` -/
def insertMissing (t : Keyed ρ key) (row : ρ) : Keyed ρ key :=
  if absent : key row ∈ t.rows.map key then t
  else
    { rows := t.rows ++ [row]
      unique := nodup_append t.unique absent }

/-- `INSERT ... SELECT ... ON CONFLICT (key) DO NOTHING` -/
def copyFrom (t : Keyed ρ key) (rows : List ρ) : Keyed ρ key := rows.foldl insertMissing t

/-- `none` when a row has the key already. -/
def insert? (t : Keyed ρ key) (row : ρ) : Option (Keyed ρ key) :=
  if taken : key row ∈ t.rows.map key then none
  else some
    { rows := t.rows ++ [row]
      unique := nodup_append t.unique taken }

def find? (t : Keyed ρ key) (k : κ) : Option ρ := t.rows.find? fun r => key r = k

/-- Rewrite the row under a key, if there is one. -/
def modify (t : Keyed ρ key) (k : κ) (f : ρ → ρ) (keeps : ∀ r, key (f r) = key r) :
    Keyed ρ key where
  rows := t.rows.map fun r => if key r = k then f r else r
  unique := (map_rewrite (key · = k) keeps).symm ▸ t.unique

def erase (t : Keyed ρ key) (k : κ) : Keyed ρ key where
  rows := t.rows.filter fun r => key r ≠ k
  unique := (List.filter_sublist.map key).nodup t.unique

def filter (t : Keyed ρ key) (p : ρ → Bool) : Keyed ρ key where
  rows := t.rows.filter p
  unique := (List.filter_sublist.map key).nodup t.unique

/-- There is one row under a key. -/
theorem eq_of_find? {t : Keyed ρ key} {k : κ} {r s : ρ} (found : t.find? k = some r)
    (member : s ∈ t.rows) (named : key s = k) : s = r := by
  have named' : key r = k := by simpa using List.find?_some found
  exact List.inj_on_of_nodup_map t.unique member (List.mem_of_find?_eq_some found)
    (named.trans named'.symm)

/-- The row under the key is rewritten. -/
theorem find?_modify {t : Keyed ρ key} {k : κ} {r : ρ} (found : t.find? k = some r) (f : ρ → ρ)
    (keeps : ∀ r, key (f r) = key r) : (t.modify k f keeps).find? k = some (f r) := by
  have same : ((fun s => decide (key s = k)) ∘ fun s => if key s = k then f s else s) =
      fun s => decide (key s = k) := by
    funext s
    by_cases named : key s = k
    · simp only [Function.comp_apply, if_pos named, keeps]
    · simp only [Function.comp_apply, if_neg named]
  have named : key r = k := by simpa using List.find?_some found
  rw [find?, modify, List.find?_map, same, show t.rows.find? _ = some r from found,
    Option.map_some, if_pos named]

theorem rows_insertMissing (t : Keyed ρ key) (row : ρ) :
    (t.insertMissing row).rows = t.rows ∨ (t.insertMissing row).rows = t.rows ++ [row] := by
  rw [insertMissing]
  split
  · exact Or.inl rfl
  · exact Or.inr rfl

/-- A copy adds rows of the source and nothing else. -/
theorem mem_of_mem_copyFrom {t : Keyed ρ key} {rows : List ρ} {r : ρ}
    (member : r ∈ (t.copyFrom rows).rows) : r ∈ t.rows ∨ r ∈ rows := by
  induction rows generalizing t with
  | nil => exact Or.inl member
  | cons row rest ih =>
    rcases ih member with inserted | copied
    · rcases t.rows_insertMissing row with same | grown
      · exact Or.inl (same ▸ inserted)
      · rw [grown] at inserted
        rcases List.mem_append.mp inserted with old | new
        · exact Or.inl old
        · exact Or.inr (List.mem_singleton.mp new ▸ List.mem_cons_self)
    · exact Or.inr (List.mem_cons_of_mem row copied)

/-- A copy removes nothing. -/
theorem subset_copyFrom (t : Keyed ρ key) (rows : List ρ) : t.rows ⊆ (t.copyFrom rows).rows := by
  induction rows generalizing t with
  | nil => exact List.Subset.refl _
  | cons row rest ih =>
    refine List.Subset.trans ?_ (ih (t.insertMissing row))
    rcases t.rows_insertMissing row with same | grown
    · exact same ▸ List.Subset.refl _
    · exact grown ▸ List.subset_append_left _ _

end Keyed
end Store
