import Hakawi.Store.Table

/-!
# Tables with a unique index

Besides the primary key one more value of a row, the index, is never that of two rows: a write
that would make it so is refused and changes nothing.
-/

namespace Store

structure Indexed (ρ : Type) (key : ρ → Nat) {ι : Type} (index : ρ → ι) extends Table ρ key where
  distinct : (rows.map index).Nodup

namespace Indexed
variable {ρ ι : Type} {key : ρ → Nat} {index : ρ → ι}

def empty : Indexed ρ key index := ⟨Table.empty, List.nodup_nil⟩

/-- Two rows with one value under the index are the same row. -/
theorem eq_of_index_eq (t : Indexed ρ key index) {r s : ρ} (hr : r ∈ t.rows) (hs : s ∈ t.rows)
    (same : index r = index s) : r = s := List.inj_on_of_nodup_map t.distinct hr hs same

variable [DecidableEq ι]

def findBy? (t : Indexed ρ key index) (value : ι) : Option ρ :=
  t.rows.find? fun r => index r = value

theorem findBy?_eq_some_iff {t : Indexed ρ key index} {value : ι} {r : ρ} :
    t.findBy? value = some r ↔ r ∈ t.rows ∧ index r = value := by
  constructor
  · intro found
    exact ⟨List.mem_of_find?_eq_some found, by simpa using List.find?_some found⟩
  · rintro ⟨member, rfl⟩
    cases found : t.findBy? (index r) with
    | none =>
      have := List.find?_eq_none.mp found r member
      simp at this
    | some s =>
      have same : index s = index r := by simpa using List.find?_some found
      rw [t.eq_of_index_eq (List.mem_of_find?_eq_some found) member same]

theorem findBy?_eq_none_iff {t : Indexed ρ key index} {value : ι} :
    t.findBy? value = none ↔ ∀ r ∈ t.rows, index r ≠ value := by
  simp [findBy?, List.find?_eq_none]

/-- `none` when the index refuses the row. -/
def insert? (t : Indexed ρ key index) (row : Nat → ρ) (named : ∀ n, key (row n) = n) :
    Option (Indexed ρ key index) :=
  if taken : index (row t.next) ∈ t.rows.map index then none
  else some
    { toTable := t.toTable.insert row named
      distinct := by
        rw [Table.insert_rows, List.map_append, List.map_singleton]
        refine List.Nodup.append t.distinct (List.nodup_singleton _) fun i old new => ?_
        rw [List.mem_singleton] at new
        exact taken (new ▸ old) }

/-- Whether a value is another row's than the one under a key. -/
def Elsewhere (t : Indexed ρ key index) (k : Nat) (value : ι) : Prop :=
  ∃ r ∈ t.rows, key r ≠ k ∧ index r = value

instance (t : Indexed ρ key index) (k : Nat) (value : ι) : Decidable (t.Elsewhere k value) :=
  inferInstanceAs (Decidable (∃ r ∈ t.rows, _ ∧ _))

/-- Rewrite the row under a key, if there is one; `none` when the index refuses it. -/
def modify? (t : Indexed ρ key index) (k : Nat) (f : ρ → ρ) (keeps : ∀ r, key (f r) = key r) :
    Option (Indexed ρ key index) :=
  if taken : ∃ r ∈ t.rows, key r = k ∧ t.Elsewhere k (index (f r)) then none
  else some
    { toTable := t.toTable.modify k f keeps
      distinct := by
        have nodup : t.rows.Nodup := List.Nodup.of_map key t.unique
        change ((t.rows.map fun r => if key r = k then f r else r).map index).Nodup
        rw [List.map_map]
        refine List.Nodup.map_on (fun r hr s hs same => ?_) nodup
        simp only [Function.comp_apply] at same
        by_cases here : key r = k
        · by_cases there : key s = k
          · exact List.inj_on_of_nodup_map t.unique hr hs (here.trans there.symm)
          · rw [if_pos here, if_neg there] at same
            exact absurd ⟨r, hr, here, s, hs, there, same.symm⟩ taken
        · by_cases there : key s = k
          · rw [if_neg here, if_pos there] at same
            exact absurd ⟨s, hs, there, r, hr, here, same⟩ taken
          · rw [if_neg here, if_neg there] at same
            exact t.eq_of_index_eq hr hs same }

section Outcomes
variable {t t' : Indexed ρ key index}

theorem insert?_eq_none_iff {row : Nat → ρ} {named : ∀ n, key (row n) = n} :
    t.insert? row named = none ↔ (t.findBy? (index (row t.next))).isSome := by
  rw [insert?, Option.isSome_iff_ne_none, Ne, findBy?_eq_none_iff]
  split
  · rename_i taken
    simpa using taken
  · rename_i free
    simpa using free

theorem toTable_of_insert? {row : Nat → ρ} {named : ∀ n, key (row n) = n}
    (inserted : t.insert? row named = some t') : t'.toTable = t.toTable.insert row named := by
  rw [insert?] at inserted
  split at inserted
  · cases inserted
  · cases inserted
    rfl

theorem toTable_of_modify? {k : Nat} {f : ρ → ρ} {keeps : ∀ r, key (f r) = key r}
    (modified : t.modify? k f keeps = some t') : t'.toTable = t.toTable.modify k f keeps := by
  rw [modify?] at modified
  split at modified
  · cases modified
  · cases modified
    rfl

theorem mem_of_insert? {row : Nat → ρ} {named : ∀ n, key (row n) = n}
    (inserted : t.insert? row named = some t') {r : ρ} (member : r ∈ t.rows) : r ∈ t'.rows := by
  rw [toTable_of_insert? inserted]
  exact List.mem_append_left _ member

/-- A rewrite leaves the rows under other keys. -/
theorem mem_of_modify? {k : Nat} {f : ρ → ρ} {keeps : ∀ r, key (f r) = key r}
    (modified : t.modify? k f keeps = some t') {r : ρ} (member : r ∈ t.rows) (other : key r ≠ k) :
    r ∈ t'.rows := by
  rw [toTable_of_modify? modified]
  exact List.mem_map.mpr ⟨r, member, if_neg other⟩

end Outcomes
end Indexed
end Store
