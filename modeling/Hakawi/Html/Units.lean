import Mathlib.Data.List.DropRight

/-!
# Strings as code units

A string is the list of its UTF-16 code units, whether its surrogates pair up or
not. Character classes are those of the regular expressions that use them, and a
position is the number of units before it.
-/

namespace Html

abbrev Units := List UInt16

instance : LawfulBEq Units := List.instLawfulBEq

/-- What holds of the units of a string is decided along the string, not over all units. -/
instance (priority := high) decidableForallUnit (p : UInt16 → Prop) [DecidablePred p]
    (text : Units) : Decidable (∀ u ∈ text, p u) :=
  List.decidableBAll p text

def unit (character : Char) : UInt16 := character.toNat.toUInt16

def units (text : String) : Units := text.toList.map unit

def DOUBLE_QUOTE : UInt16 := 34
def SINGLE_QUOTE : UInt16 := 39
def BACKSLASH : UInt16 := 92

/-- `[0-9]` -/
def isDigit (u : UInt16) : Bool := 48 ≤ u && u ≤ 57

/-- `[a-zA-Z]` -/
def isLetter (u : UInt16) : Bool := (65 ≤ u && u ≤ 90) || (97 ≤ u && u ≤ 122)

def isAlphanumeric (u : UInt16) : Bool := isLetter u || isDigit u

/-- `[0-9a-fA-F]` -/
def isHexDigit (u : UInt16) : Bool := isDigit u || (65 ≤ u && u ≤ 70) || (97 ≤ u && u ≤ 102)

/-- `\s`, which is also what `trim` removes. -/
def isSpace (u : UInt16) : Bool :=
  u ∈ [9, 10, 11, 12, 13, 32, 0xa0, 0x1680, 0x2028, 0x2029, 0x202f, 0x205f, 0x3000, 0xfeff] ||
    (0x2000 ≤ u && u ≤ 0x200a)

/-- `toLowerCase`, of a string of ASCII characters. -/
def lowerCase (text : Units) : Units := text.map fun u => if 65 ≤ u && u ≤ 90 then u + 32 else u

def trim (text : Units) : Units := (text.dropWhile isSpace).rdropWhile isSpace

/-- `String.fromCodePoint`, for a number up to `0x10ffff`. -/
def fromCodePoint (codePoint : Nat) : Units :=
  if codePoint < 0x10000 then [codePoint.toUInt16]
  else [(0xd800 + (codePoint - 0x10000) / 0x400).toUInt16,
    (0xdc00 + (codePoint - 0x10000) % 0x400).toUInt16]

/-- Where the first rest of a string stands that passes a test. -/
def searchBy (test : Units → Bool) : Units → Option Nat
  | [] => if test [] then some 0 else none
  | u :: rest => if test (u :: rest) then some 0 else (searchBy test rest).map (· + 1)

/-- Where one string first occurs in another. -/
def search (needle text : Units) : Option Nat := searchBy (needle <+: ·) text

/-- `source.indexOf(needle, position)` -/
def indexOf (source needle : Units) (position : Nat) : Option Nat :=
  (search needle (source.drop position)).map (position + ·)

/-- `source.startsWith(needle, position)` -/
def startsWith (source needle : Units) (position : Nat) : Bool := needle <+: source.drop position

/-- `source.slice(start, stop)` -/
def slice (source : Units) (start stop : Nat) : Units := (source.drop start).take (stop - start)

/-- `source.lastIndexOf(u)` -/
def lastIndexOf (u : UInt16) : Units → Int
  | [] => -1
  | v :: rest =>
    if lastIndexOf u rest ≠ -1 then lastIndexOf u rest + 1 else if v = u then 0 else -1

theorem searchBy_spec {test : Units → Bool} {text : Units} {k : Nat}
    (h : searchBy test text = some k) : test (text.drop k) ∧ k ≤ text.length := by
  induction text generalizing k with
  | nil =>
    simp only [searchBy, Option.ite_none_right_eq_some, Option.some.injEq] at h
    obtain ⟨passes, rfl⟩ := h
    exact ⟨passes, le_refl _⟩
  | cons u rest ih =>
    unfold searchBy at h
    split at h
    · rename_i passes
      obtain rfl := Option.some.inj h
      exact ⟨passes, Nat.zero_le _⟩
    · obtain ⟨j, found, rfl⟩ := Option.map_eq_some_iff.mp h
      obtain ⟨passes, within⟩ := ih found
      exact ⟨passes, Nat.succ_le_succ within⟩

theorem searchBy_first {test : Units → Bool} {text : Units} {k : Nat}
    (h : searchBy test text = some k) : ∀ j < k, test (text.drop j) = false := by
  induction text generalizing k with
  | nil =>
    simp only [searchBy, Option.ite_none_right_eq_some, Option.some.injEq] at h
    intro j before
    omega
  | cons u rest ih =>
    unfold searchBy at h
    split at h
    · obtain rfl := Option.some.inj h
      exact fun j before => absurd before (Nat.not_lt_zero j)
    · rename_i fails
      obtain ⟨i, found, rfl⟩ := Option.map_eq_some_iff.mp h
      intro j before
      cases j with
      | zero => simpa using fails
      | succ j => exact ih found j (Nat.lt_of_succ_lt_succ before)

theorem searchBy_none {test : Units → Bool} {text : Units} (h : searchBy test text = none) :
    ∀ j ≤ text.length, test (text.drop j) = false := by
  induction text with
  | nil =>
    intro j within
    obtain rfl := Nat.le_zero.mp within
    simpa [searchBy] using h
  | cons u rest ih =>
    unfold searchBy at h
    split at h
    · cases h
    · rename_i fails
      intro j within
      cases j with
      | zero => simpa using fails
      | succ j => exact ih (Option.map_eq_none_iff.mp h) j (Nat.le_of_succ_le_succ within)

theorem search_spec {needle text : Units} {k : Nat} (h : search needle text = some k) :
    needle <+: text.drop k := of_decide_eq_true (searchBy_spec h).1

theorem search_le {needle text : Units} {k : Nat} (h : search needle text = some k)
    (nonempty : needle ≠ []) : k + needle.length ≤ text.length := by
  have within := (search_spec h).length_le
  have positive := List.length_pos_iff.mpr nonempty
  rw [List.length_drop] at within
  omega

theorem indexOf_le {source needle : Units} {position k : Nat}
    (h : indexOf source needle position = some k) (nonempty : needle ≠ []) :
    position ≤ k ∧ k + needle.length ≤ source.length := by
  obtain ⟨j, found, rfl⟩ := Option.map_eq_some_iff.mp h
  have within := search_le found nonempty
  have positive := List.length_pos_iff.mpr nonempty
  rw [List.length_drop] at within
  omega

theorem search_unit {before : Units} {u : UInt16} (h : u ∉ before) (rest : Units) :
    search [u] (before ++ u :: rest) = some before.length := by
  induction before with
  | nil => simp [search, searchBy]
  | cons v before ih =>
    obtain ⟨different, absent⟩ := List.ne_and_not_mem_of_not_mem_cons h
    unfold search at ih ⊢
    simp [searchBy, different, ih absent]

theorem search_unit_none {text : Units} {u : UInt16} (h : u ∉ text) : search [u] text = none := by
  induction text with
  | nil => simp [search, searchBy]
  | cons v text ih =>
    obtain ⟨different, absent⟩ := List.ne_and_not_mem_of_not_mem_cons h
    unfold search at ih ⊢
    simp [searchBy, different, ih absent]

theorem search_unit_some {text : Units} {u : UInt16} {k : Nat} (h : search [u] text = some k) :
    ∃ before rest, text = before ++ u :: rest ∧ u ∉ before ∧ before.length = k := by
  by_cases member : u ∈ text
  · obtain ⟨before, rest, rfl, absent⟩ := List.eq_append_cons_of_mem member
    rw [search_unit absent] at h
    exact ⟨before, rest, rfl, absent, Option.some.inj h⟩
  · rw [search_unit_none member] at h
    cases h

theorem search_unit_eq_none {text : Units} {u : UInt16} : search [u] text = none ↔ u ∉ text := by
  constructor
  · intro h member
    obtain ⟨before, rest, rfl, absent⟩ := List.eq_append_cons_of_mem member
    rw [search_unit absent] at h
    cases h
  · exact search_unit_none

theorem neg_one_le_lastIndexOf (u : UInt16) (text : Units) : -1 ≤ lastIndexOf u text := by
  induction text with
  | nil => simp [lastIndexOf]
  | cons v rest ih =>
    simp only [lastIndexOf]
    split
    · omega
    · split <;> omega

theorem lastIndexOf_lt {u : UInt16} {text : Units} {k : Nat} (h : lastIndexOf u text < k) :
    text[k]? ≠ some u := by
  induction text generalizing k with
  | nil => simp
  | cons v rest ih =>
    have least := neg_one_le_lastIndexOf u rest
    simp only [lastIndexOf] at h
    cases k with
    | zero =>
      split at h
      · omega
      · split at h
        · omega
        · rename_i other
          simpa using other
    | succ k =>
      rw [List.getElem?_cons_succ]
      refine ih ?_
      split at h
      · omega
      · rename_i absent
        omega

/-- The first of a unit splits a string in one way. -/
theorem split_unit {u : UInt16} {before after rest other : Units}
    (h : before ++ u :: rest = after ++ u :: other) (absent : u ∉ before) (first : u ∉ after) :
    before = after := by
  have lengths := search_unit absent rest
  rw [h, search_unit first, Option.some.injEq] at lengths
  exact List.append_inj_left h lengths.symm

/-- A run of a class ends before the first unit outside it. -/
theorem takeWhile_append_stop {p : UInt16 → Bool} {run rest : Units} (inside : run.all p)
    (stop : ∀ u ∈ rest.head?, ¬ p u) : (run ++ rest).takeWhile p = run := by
  induction run with
  | nil =>
    cases rest with
    | nil => rfl
    | cons u rest => exact List.takeWhile_cons_of_neg (stop u rfl)
  | cons u run ih =>
    obtain ⟨first, others⟩ := Bool.and_eq_true_iff.mp inside
    rw [List.cons_append, List.takeWhile_cons_of_pos first, ih others]

theorem takeWhile_append_outside {p : UInt16 → Bool} {u : UInt16} (outside : p u = false)
    (run rest : Units) : (run ++ u :: rest).takeWhile p = run.takeWhile p := by
  induction run with
  | nil => simp [outside]
  | cons v run ih =>
    rw [List.cons_append, List.takeWhile_cons, List.takeWhile_cons, ih]

theorem fromCodePoint_ne_nil (codePoint : Nat) : fromCodePoint codePoint ≠ [] := by
  unfold fromCodePoint
  split
  · exact List.cons_ne_nil _ _
  · exact List.cons_ne_nil _ _

/-- White space is below the digits or above the letters. -/
theorem isSpace_of_visible {u : UInt16} (low : 33 ≤ u) (high : u ≤ 126) : isSpace u = false := by
  by_contra space
  rw [Bool.not_eq_false, isSpace, Bool.or_eq_true] at space
  rcases space with listed | range
  · simp only [List.mem_cons, List.not_mem_nil, or_false, decide_eq_true_eq] at listed
    rcases listed with rfl | rfl | rfl | rfl | rfl | rfl | rfl | rfl | rfl | rfl | rfl | rfl | rfl |
      rfl <;> revert low high <;> decide
  · simp only [Bool.and_eq_true, decide_eq_true_eq, UInt16.le_iff_toNat_le] at range high
    have bounds : (126 : UInt16).toNat = 126 ∧ (0x2000 : UInt16).toNat = 0x2000 := by decide
    omega

theorem isSpace_of_isDigit {u : UInt16} (h : isDigit u) : isSpace u = false := by
  simp only [isDigit, Bool.and_eq_true, decide_eq_true_eq] at h
  exact isSpace_of_visible (UInt16.le_trans (show (33 : UInt16) ≤ 48 by decide) h.1)
    (UInt16.le_trans h.2 (show (57 : UInt16) ≤ 126 by decide))

/-- Behind the longest run of a class. -/
theorem drop_takeWhile (p : UInt16 → Bool) (text : Units) :
    text.drop (text.takeWhile p).length = text.dropWhile p := by
  induction text with
  | nil => rfl
  | cons u rest ih =>
    cases inside : p u with
    | true => simp [inside, ih]
    | false => simp [inside]

theorem trim_parts (text : Units) : ∃ front back, text = front ++ trim text ++ back := by
  refine ⟨text.takeWhile isSpace, (text.dropWhile isSpace).rtakeWhile isSpace, ?_⟩
  rw [trim, List.append_assoc, List.rdropWhile_append_rtakeWhile, List.takeWhile_append_dropWhile]

/-- A list trimmed at both ends has nothing left to drop in front. -/
theorem dropWhile_trimmed {α : Type} (p : α → Bool) (l : List α) :
    ((l.dropWhile p).rdropWhile p).dropWhile p = (l.dropWhile p).rdropWhile p := by
  rw [List.dropWhile_eq_self_iff]
  intro nonempty dropped
  have same := (List.rdropWhile_prefix p (l.dropWhile p)).getElem nonempty
  rw [same] at dropped
  exact List.dropWhile_get_zero_not p l _ dropped

theorem trim_trim (text : Units) : trim (trim text) = trim text := by
  rw [trim, trim, dropWhile_trimmed, List.rdropWhile_idempotent]

theorem trim_plain {text : Units} (h : ∀ u ∈ text, isSpace u = false) : trim text = text := by
  have front : text.dropWhile isSpace = text := by
    rw [List.dropWhile_eq_self_iff]
    intro within
    simp [h _ (List.getElem_mem within)]
  rw [trim, front, List.rdropWhile_eq_self_iff]
  intro nonempty
  simp [h _ (List.getLast_mem nonempty)]

/-- White space in front is white space in front of what replaces each unit, if white
space stays and all else starts with something else. -/
theorem dropWhile_flatMap {p : UInt16 → Bool} {f : UInt16 → Units} (stays : ∀ u, p u → f u = [u])
    (starts : ∀ u, p u = false → ∃ v ∈ (f u).head?, p v = false) (text : Units) :
    (text.flatMap f).dropWhile p = (text.dropWhile p).flatMap f := by
  induction text with
  | nil => rfl
  | cons u rest ih =>
    cases space : p u with
    | true => simp [stays u space, space, ih]
    | false =>
      obtain ⟨v, first, other⟩ := starts u space
      obtain ⟨tail, same⟩ := List.head?_eq_some_iff.mp first
      simp [same, space, other]

section Positions
variable {source before rest : Units} {position : Nat}

/-- What stands behind a part that was read. -/
theorem drop_behind (h : source.drop position = before ++ rest) :
    source.drop (position + before.length) = rest := by
  rw [← List.drop_drop, h, List.drop_left]

theorem slice_of_drop (h : source.drop position = before ++ rest) :
    slice source position (position + before.length) = before := by
  rw [slice, h, Nat.add_sub_cancel_left, List.take_left]

theorem indexOf_unit {u : UInt16} (h : source.drop position = before ++ u :: rest)
    (absent : u ∉ before) : indexOf source [u] position = some (position + before.length) := by
  rw [indexOf, h, search_unit absent, Option.map_some]

theorem indexOf_unit_none {u : UInt16} (h : u ∉ source.drop position) :
    indexOf source [u] position = none := by
  rw [indexOf, search_unit_none h, Option.map_none]

theorem getElem?_of_drop (h : source.drop position = before) (k : Nat) :
    source[position + k]? = before[k]? := by
  rw [← h, List.getElem?_drop]

end Positions
end Html
