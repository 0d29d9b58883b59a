import Mathlib.Data.List.Basic

/-!
# Segments between separators

Lists joined with a separator, and the escaping that lets a segment contain it. What
follows a segment is nothing or a separator; then the segment can be read off, whether
it is free of the separator or escaped.
-/

namespace Segments

variable {α : Type}

/-- Nothing, or a separator and the rest. -/
def Stops (separator : α) : List α → Prop
  | [] => True
  | a :: _ => a = separator

theorem Stops.cons (separator : α) (rest : List α) : Stops separator (separator :: rest) := rfl

/-- Segments without the separator are told apart by where it stands. -/
theorem append_inj_of_not_mem {separator : α} {first second rest rest' : List α}
    (absent : separator ∉ first) (absent' : separator ∉ second)
    (stops : Stops separator rest) (stops' : Stops separator rest')
    (same : first ++ rest = second ++ rest') : first = second ∧ rest = rest' := by
  induction first generalizing second with
  | nil =>
    cases second with
    | nil => exact ⟨rfl, same⟩
    | cons b second =>
      rw [List.nil_append] at same
      subst same
      exact (absent' (List.mem_cons.mpr (Or.inl (show separator = b from stops.symm)))).elim
  | cons a first ih =>
    cases second with
    | nil =>
      rw [List.nil_append] at same
      subst same
      exact (absent (List.mem_cons.mpr (Or.inl (show separator = a from stops'.symm)))).elim
    | cons b second =>
      obtain ⟨rfl, later⟩ := List.cons.inj same
      obtain ⟨rfl, rest⟩ := ih (List.not_mem_of_not_mem_cons absent)
        (List.not_mem_of_not_mem_cons absent') later
      exact ⟨rfl, rest⟩

variable [DecidableEq α]

/-- Nonempty lists of segments without the separator are told apart joined. -/
theorem join_injective {separator : α} {segments others : List (List α)}
    (absent : ∀ segment ∈ segments, separator ∉ segment)
    (absent' : ∀ segment ∈ others, separator ∉ segment)
    (nonempty : segments ≠ []) (nonempty' : others ≠ [])
    (same : [separator].intercalate segments = [separator].intercalate others) :
    segments = others := by
  rw [← List.splitOn_intercalate separator absent nonempty, same,
    List.splitOn_intercalate separator absent' nonempty']

/-- The separator and the escape each get an escape before them. -/
def escape (mark separator : α) (segment : List α) : List α :=
  segment.flatMap fun a => if a = mark ∨ a = separator then [mark, a] else [a]

section Escape
variable {mark separator : α}

theorem escape_cons (a : α) (segment : List α) :
    escape mark separator (a :: segment) =
      (if a = mark ∨ a = separator then [mark, a] else [a]) ++ escape mark separator segment := rfl

theorem mem_escape {segment : List α} {a : α} (member : a ∈ escape mark separator segment) :
    a ∈ segment ∨ a = mark := by
  obtain ⟨b, inside, piece⟩ := List.mem_flatMap.mp member
  split at piece
  · rcases List.mem_cons.mp piece with isMark | last
    · exact Or.inr isMark
    · exact Or.inl (List.mem_singleton.mp last ▸ inside)
  · exact Or.inl (List.mem_singleton.mp piece ▸ inside)

/-- Escaped segments are told apart by the first separator that is not escaped. -/
theorem escape_append_inj (different : mark ≠ separator) {first second rest rest' : List α}
    (stops : Stops separator rest) (stops' : Stops separator rest')
    (same : escape mark separator first ++ rest = escape mark separator second ++ rest') :
    first = second ∧ rest = rest' := by
  induction first generalizing second with
  | nil =>
    cases second with
    | nil => exact ⟨rfl, same⟩
    | cons b second =>
      simp only [escape_cons] at same
      change rest = _ at same
      subst same
      split at stops
      · exact (different stops).elim
      · rename_i plain
        exact (plain (Or.inr stops)).elim
  | cons a first ih =>
    cases second with
    | nil =>
      simp only [escape_cons] at same
      change _ = rest' at same
      subst same
      split at stops'
      · exact (different stops').elim
      · rename_i plain
        exact (plain (Or.inr stops')).elim
    | cons b second =>
      simp only [escape_cons, List.append_assoc] at same
      by_cases marked : a = mark ∨ a = separator
      · by_cases marked' : b = mark ∨ b = separator
        · simp only [marked, marked', if_true, List.cons_append, List.nil_append] at same
          obtain ⟨-, next⟩ := List.cons.inj same
          obtain ⟨rfl, later⟩ := List.cons.inj next
          obtain ⟨rfl, rest⟩ := ih later
          exact ⟨rfl, rest⟩
        · simp only [marked, marked', if_true, if_false, List.cons_append, List.nil_append] at same
          exact (marked' (Or.inl (List.cons.inj same).1.symm)).elim
      · by_cases marked' : b = mark ∨ b = separator
        · simp only [marked, marked', if_true, if_false, List.cons_append, List.nil_append] at same
          exact (marked (Or.inl (List.cons.inj same).1)).elim
        · simp only [marked, marked', if_false, List.cons_append, List.nil_append] at same
          obtain ⟨rfl, later⟩ := List.cons.inj same
          obtain ⟨rfl, rest⟩ := ih later
          exact ⟨rfl, rest⟩

end Escape

/-- Lists of escaped segments of one length are told apart joined, whatever follows. -/
theorem join_escape_append_inj {mark separator : α} (different : mark ≠ separator)
    {segments others : List (List α)} {rest rest' : List α}
    (length : segments.length = others.length)
    (stops : Stops separator rest) (stops' : Stops separator rest')
    (same : [separator].intercalate (segments.map (escape mark separator)) ++ rest =
      [separator].intercalate (others.map (escape mark separator)) ++ rest') :
    segments = others ∧ rest = rest' := by
  induction segments generalizing others with
  | nil =>
    obtain rfl := List.length_eq_zero_iff.mp length.symm
    exact ⟨rfl, same⟩
  | cons first segments ih =>
    obtain ⟨second, others, rfl⟩ := List.exists_cons_of_length_eq_add_one length.symm
    cases segments with
    | nil =>
      obtain rfl : others = [] := List.length_eq_zero_iff.mp (by simpa using length.symm)
      simp only [List.map_cons, List.map_nil, List.intercalate_singleton] at same
      obtain ⟨rfl, rest⟩ := escape_append_inj different stops stops' same
      exact ⟨rfl, rest⟩
    | cons next segments =>
      obtain ⟨next', others, rfl⟩ := List.exists_cons_of_length_eq_add_one
        (by simpa using length.symm : others.length = segments.length + 1)
      simp only [List.map_cons, List.intercalate_cons_cons, List.append_assoc,
        List.singleton_append] at same
      obtain ⟨rfl, later⟩ := escape_append_inj different (.cons _ _) (.cons _ _) same
      have shorter : (next :: segments).length = (next' :: others).length := by
        simpa using length
      obtain ⟨same, rest⟩ := ih shorter (List.cons.inj later).2
      exact ⟨congrArg _ same, rest⟩

end Segments
