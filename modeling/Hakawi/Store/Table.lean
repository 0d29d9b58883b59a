import Mathlib.Algebra.BigOperators.Group.List.Basic
import Mathlib.Data.List.Nodup
import Mathlib.Tactic.Abel

/-!
# Tables with a generated primary key

A table holds rows under pairwise different keys and the next key to be handed
out. Keys are never reused, not even after a row is deleted, so a key that some
program still remembers cannot come to name another row.
-/

namespace Store

section Limit
variable {ρ : Type} {rows : List ρ} {row : ρ}

/-- `LIMIT 1` without an order: one of the rows, when there are any. -/
def limitOne (rows : List ρ) (pick : Nat) : Option ρ := rows[pick % rows.length]?

theorem mem_of_limitOne {pick : Nat} (found : limitOne rows pick = some row) : row ∈ rows :=
  List.mem_of_getElem? found

theorem limitOne_isSome (member : row ∈ rows) (pick : Nat) :
    ∃ first, limitOne rows pick = some first := by
  have lt : pick % rows.length < rows.length := Nat.mod_lt pick (List.length_pos_of_mem member)
  exact ⟨_, List.getElem?_eq_getElem lt⟩

theorem limitOne_zero (rows : List ρ) (p : ρ → Bool) :
    limitOne (rows.filter p) 0 = rows.find? p := by
  rw [limitOne, Nat.zero_mod, ← List.head?_eq_getElem?, List.head?_filter]

end Limit

structure Table (ρ : Type) (key : ρ → Nat) where
  rows : List ρ
  next : Nat
  unique : (rows.map key).Nodup
  below : ∀ r ∈ rows, key r < next

namespace Table
variable {ρ : Type} {key : ρ → Nat}

def empty : Table ρ key := ⟨[], 0, List.nodup_nil, by simp⟩

def find? (t : Table ρ key) (k : Nat) : Option ρ := t.rows.find? (fun r => key r = k)

/-- Insert the row built from the next free key. -/
def insert (t : Table ρ key) (row : Nat → ρ) (named : ∀ n, key (row n) = n) : Table ρ key where
  rows := t.rows ++ [row t.next]
  next := t.next + 1
  unique := by
    simp only [List.map_append, List.map_cons, List.map_nil, named]
    refine List.nodup_append.mpr ⟨t.unique, List.nodup_singleton _, ?_⟩
    intro a ha b hb
    obtain ⟨r, hr, rfl⟩ := List.mem_map.mp ha
    have := t.below r hr
    simp only [List.mem_singleton] at hb
    omega
  below := by
    intro r hr
    rcases List.mem_append.mp hr with hr | hr
    · exact Nat.lt_succ_of_lt (t.below r hr)
    · rw [List.mem_singleton.mp hr, named]
      exact Nat.lt_succ_self _

/-- Rewrite the row with key `k`, if there is one, keeping its key. -/
def modify (t : Table ρ key) (k : Nat) (f : ρ → ρ) (keeps : ∀ r, key (f r) = key r) :
    Table ρ key where
  rows := t.rows.map (fun r => if key r = k then f r else r)
  next := t.next
  unique := by
    have same : (t.rows.map (fun r => if key r = k then f r else r)).map key = t.rows.map key := by
      rw [List.map_map]
      refine List.map_congr_left fun r _ => ?_
      by_cases h : key r = k <;> simp [h, keeps]
    rw [same]
    exact t.unique
  below := by
    intro r hr
    obtain ⟨a, ha, rfl⟩ := List.mem_map.mp hr
    have := t.below a ha
    by_cases h : key a = k
    · simpa only [h, if_true, keeps] using h ▸ this
    · simpa only [h, if_false] using this

def erase (t : Table ρ key) (k : Nat) : Table ρ key where
  rows := t.rows.filter (fun r => key r ≠ k)
  next := t.next
  unique := (List.filter_sublist.map key).nodup t.unique
  below := fun r hr => t.below r (List.mem_of_mem_filter hr)

theorem find?_eq_some_iff {t : Table ρ key} {k : Nat} {r : ρ} :
    t.find? k = some r ↔ r ∈ t.rows ∧ key r = k := by
  constructor
  · intro h
    exact ⟨List.mem_of_find?_eq_some h, by simpa using List.find?_some h⟩
  · rintro ⟨hr, rfl⟩
    cases hf : t.find? (key r) with
    | none =>
      have := List.find?_eq_none.mp hf r hr
      simp at this
    | some r' =>
      have hk : key r' = key r := by simpa using List.find?_some hf
      rw [List.inj_on_of_nodup_map t.unique (List.mem_of_find?_eq_some hf) hr hk]

theorem find?_eq_none_iff {t : Table ρ key} {k : Nat} :
    t.find? k = none ↔ ∀ r ∈ t.rows, key r ≠ k := by
  simp [find?, List.find?_eq_none]

theorem mem_of_find? {t : Table ρ key} {k : Nat} {r : ρ} (h : t.find? k = some r) : r ∈ t.rows :=
  (find?_eq_some_iff.mp h).1

theorem key_of_find? {t : Table ρ key} {k : Nat} {r : ρ} (h : t.find? k = some r) : key r = k :=
  (find?_eq_some_iff.mp h).2

theorem lt_next_of_find? {t : Table ρ key} {k : Nat} {r : ρ} (h : t.find? k = some r) :
    k < t.next := by
  rw [← key_of_find? h]
  exact t.below r (mem_of_find? h)

theorem find?_next (t : Table ρ key) : t.find? t.next = none :=
  find?_eq_none_iff.mpr fun r hr => by have := t.below r hr; omega

@[simp] theorem insert_rows (t : Table ρ key) (row : Nat → ρ) (named : ∀ n, key (row n) = n) :
    (t.insert row named).rows = t.rows ++ [row t.next] := rfl

theorem find?_insert (t : Table ρ key) (row : Nat → ρ) (named : ∀ n, key (row n) = n) (k : Nat) :
    (t.insert row named).find? k = if k = t.next then some (row t.next) else t.find? k := by
  simp only [find?, insert_rows, List.find?_append, List.find?_singleton, named]
  by_cases h : k = t.next
  · subst h
    have : t.find? t.next = none := t.find?_next
    simp only [find?] at this
    simp [this]
  · have : ¬ t.next = k := fun e => h e.symm
    simp [h, this]

theorem find?_modify (t : Table ρ key) (k : Nat) (f : ρ → ρ) (keeps : ∀ r, key (f r) = key r)
    (j : Nat) : (t.modify k f keeps).find? j = if j = k then (t.find? j).map f else t.find? j := by
  simp only [find?, modify, List.find?_map]
  have same : ((fun r => decide (key r = j)) ∘ fun r => if key r = k then f r else r) =
      fun r => decide (key r = j) := by
    funext r
    by_cases h : key r = k <;> simp [h, keeps]
  rw [same]
  cases hf : t.rows.find? (fun r => decide (key r = j)) with
  | none => simp
  | some r =>
    have hk : key r = j := by simpa using List.find?_some hf
    by_cases h : j = k <;> simp [h, hk]

theorem find?_modify_ne {t : Table ρ key} {k j : Nat} {f : ρ → ρ}
    (keeps : ∀ r, key (f r) = key r) (h : j ≠ k) : (t.modify k f keeps).find? j = t.find? j := by
  rw [find?_modify, if_neg h]

theorem find?_modify_self {t : Table ρ key} {k : Nat} {f : ρ → ρ}
    (keeps : ∀ r, key (f r) = key r) : (t.modify k f keeps).find? k = (t.find? k).map f := by
  rw [find?_modify, if_pos rfl]

/-- Rewrite every row, keeping its key. -/
def map (t : Table ρ key) (f : ρ → ρ) (keeps : ∀ r, key (f r) = key r) : Table ρ key where
  rows := t.rows.map f
  next := t.next
  unique := by
    have same : key ∘ f = key := funext keeps
    rw [List.map_map, same]
    exact t.unique
  below := by
    intro r hr
    obtain ⟨a, ha, rfl⟩ := List.mem_map.mp hr
    rw [keeps]
    exact t.below a ha

theorem find?_map (t : Table ρ key) (f : ρ → ρ) (keeps : ∀ r, key (f r) = key r) (k : Nat) :
    (t.map f keeps).find? k = (t.find? k).map f := by
  simp only [find?, map, List.find?_map]
  have same : ((fun r => decide (key r = k)) ∘ f) = fun r => decide (key r = k) := by
    funext r
    simp [keeps]
  rw [same]

section Total
variable {M : Type} [AddCommGroup M] (w : ρ → M)

/-- The sum of a weight over all rows. -/
def total (t : Table ρ key) : M := (t.rows.map w).sum

theorem total_insert (t : Table ρ key) (row : Nat → ρ) (named : ∀ n, key (row n) = n) :
    (t.insert row named).total w = t.total w + w (row t.next) := by
  simp [total]

/-- Rewriting one row changes a sum by the new weight minus the old one. -/
theorem total_modify {t : Table ρ key} {k : Nat} {f : ρ → ρ} (keeps : ∀ r, key (f r) = key r)
    {r : ρ} (h : t.find? k = some r) :
    (t.modify k f keeps).total w = t.total w - w r + w (f r) := by
  obtain ⟨rows, next, unique, below⟩ := t
  simp only [total, modify, find?] at h ⊢
  clear below keeps
  induction rows with
  | nil => cases h
  | cons a rest ih =>
    simp only [List.map_cons, List.nodup_cons] at unique
    by_cases ha : key a = k
    · rw [List.find?_cons_of_pos (by simpa using ha)] at h
      obtain rfl := Option.some.inj h
      have same : rest.map (fun r => if key r = k then f r else r) = rest := by
        conv_rhs => rw [← List.map_id rest]
        refine List.map_congr_left fun b hb => ?_
        have : key b ≠ k := fun e => unique.1 (List.mem_map.mpr ⟨b, hb, e.trans ha.symm⟩)
        simp [this]
      simp only [List.map_cons, ha, if_true, same, List.sum_cons]
      abel
    · rw [List.find?_cons_of_neg (by simpa using ha)] at h
      simp only [List.map_cons, ha, if_false, List.sum_cons, ih unique.2 h]
      abel

end Total

section Count
variable (p : ρ → Bool)

/-- The number of rows that satisfy a predicate. -/
def count (t : Table ρ key) : Nat := t.rows.countP p

/-- Delete every row that satisfies a predicate. -/
def remove (t : Table ρ key) : Table ρ key where
  rows := t.rows.filter fun r => !p r
  next := t.next
  unique := (List.filter_sublist.map key).nodup t.unique
  below := fun r hr => t.below r (List.mem_of_mem_filter hr)

theorem mem_remove {t : Table ρ key} {r : ρ} :
    r ∈ (t.remove p).rows ↔ r ∈ t.rows ∧ p r = false := by
  simp [remove]

theorem count_eq_total (t : Table ρ key) :
    (t.count p : Int) = t.total fun r => if p r then 1 else 0 := by
  obtain ⟨rows, next, unique, below⟩ := t
  simp only [count, total]
  clear unique below
  induction rows with
  | nil => rfl
  | cons r rest ih =>
    rw [List.map_cons, List.sum_cons, ← ih, List.countP_cons]
    split <;> simp_all [add_comm]

theorem count_insert (t : Table ρ key) (row : Nat → ρ) (named : ∀ n, key (row n) = n) :
    (t.insert row named).count p = t.count p + if p (row t.next) then 1 else 0 := by
  rw [count, insert_rows, List.countP_append, List.countP_singleton]
  rfl

/-- Rewriting one row moves the count by that row alone. -/
theorem count_modify {t : Table ρ key} {k : Nat} {f : ρ → ρ} (keeps : ∀ r, key (f r) = key r)
    {r : ρ} (h : t.find? k = some r) :
    (t.modify k f keeps).count p + (if p r then 1 else 0) =
      t.count p + if p (f r) then 1 else 0 := by
  have moved := total_modify (fun r => if p r then (1 : Int) else 0) keeps h
  rw [← count_eq_total, ← count_eq_total] at moved
  split <;> split <;> simp_all <;> omega

theorem count_modify_same {t : Table ρ key} {k : Nat} {f : ρ → ρ} (keeps : ∀ r, key (f r) = key r)
    (same : ∀ r, p (f r) = p r) : (t.modify k f keeps).count p = t.count p := by
  rw [count, modify, List.countP_map]
  refine List.countP_congr fun r _ => ?_
  by_cases h : key r = k <;> simp [h, same]

theorem count_remove (t : Table ρ key) (q : ρ → Bool) :
    (t.remove p).count q + t.count (fun r => p r && q r) = t.count q := by
  obtain ⟨rows, next, unique, below⟩ := t
  simp only [count, remove]
  clear unique below
  induction rows with
  | nil => rfl
  | cons r rest ih =>
    rw [List.filter_cons, List.countP_cons, List.countP_cons]
    cases p r <;> cases hq : q r <;> simp_all <;> omega

/-- The rows that satisfy a predicate, sorted by another. -/
theorem count_split (t : Table ρ key) (q : ρ → Bool) :
    t.count p = t.count (fun r => p r && q r) + t.count fun r => p r && !q r := by
  obtain ⟨rows, next, unique, below⟩ := t
  simp only [count]
  clear unique below
  induction rows with
  | nil => rfl
  | cons r rest ih =>
    rw [List.countP_cons, List.countP_cons, List.countP_cons, ih]
    cases p r <;> cases q r <;> simp <;> omega

/-- Among the keys of the rows that satisfy a predicate, a key comes once or not at all. -/
theorem count_keys (t : Table ρ key) (k : Nat) :
    ((t.rows.filter p).map key).count k = if (t.find? k).any p then 1 else 0 := by
  have unique : ((t.rows.filter p).map key).Nodup := (List.filter_sublist.map key).nodup t.unique
  have same : k ∈ (t.rows.filter p).map key ↔ (t.find? k).any p = true := by
    constructor
    · intro member
      obtain ⟨r, hr, rfl⟩ := List.mem_map.mp member
      obtain ⟨hr, holds⟩ := List.mem_filter.mp hr
      rw [find?_eq_some_iff.mpr ⟨hr, rfl⟩]
      exact holds
    · intro holds
      cases found : t.find? k with
      | none => simp [found] at holds
      | some r =>
        obtain ⟨hr, rfl⟩ := find?_eq_some_iff.mp found
        rw [found] at holds
        exact List.mem_map_of_mem (List.mem_filter.mpr ⟨hr, holds⟩)
  rw [unique.count]
  simp only [same]

theorem count_pos_iff {t : Table ρ key} : 0 < t.count p ↔ ∃ r ∈ t.rows, p r = true :=
  List.countP_pos_iff

theorem count_eq_zero_iff {t : Table ρ key} : t.count p = 0 ↔ ∀ r ∈ t.rows, p r = false := by
  simp [count, List.countP_eq_zero]

end Count
end Table
end Store
