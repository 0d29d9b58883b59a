import Hakawi.Html.Fragment

/-!
# Balanced words

A word of brackets is balanced if every bracket is closed by one of its own name
and in its own place. A stack of the open names, innermost first, decides it.
-/

namespace Html

inductive Bracket (Name : Type) where
  | opens (name : Name)
  | closes (name : Name)
  deriving DecidableEq

inductive Balanced {Name : Type} : List (Bracket Name) → Prop where
  | nil : Balanced []
  | element {inner rest : List (Bracket Name)} (name : Name) (inside : Balanced inner)
      (after : Balanced rest) : Balanced (.opens name :: inner ++ .closes name :: rest)

/-- A balanced word, and then for each open name its end and another balanced word. -/
inductive Completes {Name : Type} : List Name → List (Bracket Name) → Prop where
  | done {word : List (Bracket Name)} (balanced : Balanced word) : Completes [] word
  | next {word rest : List (Bracket Name)} {stack : List Name} (name : Name)
      (balanced : Balanced word) (others : Completes stack rest) :
      Completes (name :: stack) (word ++ .closes name :: rest)

theorem Completes.element {Name : Type} {word rest : List (Bracket Name)} {stack : List Name}
    (name : Name) (inside : Balanced word) (after : Completes stack rest) :
    Completes stack (.opens name :: word ++ .closes name :: rest) := by
  cases after with
  | done balanced => exact .done (.element name inside balanced)
  | @next between others stack outer balanced completes =>
    have before : Balanced (.opens name :: word ++ .closes name :: between) :=
      .element name inside balanced
    simpa using Completes.next outer before completes

section Stack
variable {Name : Type} [DecidableEq Name]

/-- The names a word leaves open, unless it closes one that is not innermost. -/
def unwind : List Name → List (Bracket Name) → Option (List Name)
  | stack, [] => some stack
  | stack, .opens name :: rest => unwind (name :: stack) rest
  | [], .closes _ :: _ => none
  | top :: stack, .closes name :: rest => if top = name then unwind stack rest else none

theorem unwind_append {first second : List (Bracket Name)} {stack middle : List Name}
    (h : unwind stack first = some middle) : unwind stack (first ++ second) = unwind middle second := by
  induction first generalizing stack with
  | nil =>
    obtain rfl := Option.some.inj h
    rfl
  | cons bracket first ih =>
    cases bracket with
    | opens name => exact ih h
    | closes name =>
      cases stack with
      | nil => cases h
      | cons top stack =>
        by_cases same : top = name
        · simp only [unwind, if_pos same, List.cons_append] at h ⊢
          exact ih h
        · simp [unwind, same] at h

/-- What closes first closes the innermost name. -/
theorem unwind_closes_cons {name : Name} {rest : List (Bracket Name)} {stack outer : List Name}
    (h : unwind stack (.closes name :: rest) = some outer) :
    ∃ inner, stack = name :: inner ∧ unwind inner rest = some outer := by
  cases stack with
  | nil => cases h
  | cons top inner =>
    by_cases same : top = name
    · exact ⟨inner, by rw [same], by simpa [unwind, same] using h⟩
    · simp [unwind, same] at h

theorem unwind_balanced {word : List (Bracket Name)} (h : Balanced word) (stack : List Name) :
    unwind stack word = some stack := by
  induction h generalizing stack with
  | nil => rfl
  | @element inner rest name inside after ihInside ihAfter =>
    have within : unwind stack (.opens name :: inner) = some (name :: stack) := ihInside (name :: stack)
    rw [unwind_append within]
    simp only [unwind, if_true]
    exact ihAfter stack

theorem completes_of_unwind {word : List (Bracket Name)} {stack : List Name}
    (h : unwind stack word = some []) : Completes stack word := by
  induction word generalizing stack with
  | nil =>
    obtain rfl := Option.some.inj h
    exact .done .nil
  | cons bracket rest ih =>
    cases bracket with
    | opens name =>
      cases ih h with
      | next _ balanced others => exact .element name balanced others
    | closes name =>
      cases stack with
      | nil => cases h
      | cons top stack =>
        by_cases same : top = name
        · simp only [unwind, if_pos same] at h
          subst same
          exact .next top .nil (ih h)
        · simp [unwind, same] at h

theorem unwind_eq_nil_iff {word : List (Bracket Name)} :
    unwind [] word = some [] ↔ Balanced word := by
  constructor
  · intro h
    cases completes_of_unwind h with
    | done balanced => exact balanced
  · exact fun h => unwind_balanced h []

/-- Closing the innermost names in turn leaves the others open. -/
theorem unwind_closes (stack outer : List Name) :
    unwind (stack ++ outer) (stack.map .closes) = some outer := by
  induction stack with
  | nil => rfl
  | cons top stack ih => simp [unwind, ih]

end Stack

section Tags
variable (void : List Units)

/-- The bracket a tag is. An element without an end is none. -/
def HtmlToken.bracket : HtmlToken → Option (Bracket Units)
  | .character _ => none
  | .startTag name _ _ => if name ∈ void then none else some (.opens name)
  | .endTag name => if name ∈ void then none else some (.closes name)

def Piece.bracket : Piece → Option (Bracket Units)
  | .text _ => none
  | .openTag name _ => if name ∈ void then none else some (.opens name)
  | .closeTag name => if name ∈ void then none else some (.closes name)

theorem Piece.bracket_escape (piece : Piece) : piece.escape.bracket void = piece.bracket void := by
  cases piece <;> rfl

theorem Piece.tokens_brackets (piece : Piece) :
    piece.tokens.filterMap (HtmlToken.bracket void) = (piece.bracket void).toList := by
  cases piece with
  | text written =>
    simp only [tokens, List.filterMap_map, Piece.bracket, Option.toList_none]
    exact List.filterMap_eq_nil_iff.mpr fun _ _ => rfl
  | openTag name attributes =>
    by_cases single : name ∈ void <;> simp [tokens, HtmlToken.bracket, Piece.bracket, single]
  | closeTag name =>
    by_cases single : name ∈ void <;> simp [tokens, HtmlToken.bracket, Piece.bracket, single]

/-- Tokens nest as the pieces do that they are read from. -/
theorem tokens_brackets (pieces : List Piece) :
    (pieces.flatMap Piece.tokens).filterMap (HtmlToken.bracket void) =
      pieces.filterMap (Piece.bracket void) := by
  induction pieces with
  | nil => rfl
  | cons piece rest ih =>
    rw [List.flatMap_cons, List.filterMap_append, piece.tokens_brackets, ih, List.filterMap_cons]
    cases piece.bracket void <;> rfl

end Tags

/-!
## Writing under an allowlist

A writer that opens, closes and keeps a stack of what is open. As long as it only
writes what its list allows, what it has written is read back as it was meant, and
it is balanced once the stack is empty.
-/

section Stack
variable {Name : Type} [DecidableEq Name]

/-- The open elements up to the first of this name, and those outside of it. -/
def closed (names : List Name) (name : Name) : List Name :=
  names.takeWhile (· ≠ name) ++ [name]

def left (names : List Name) (name : Name) : List Name := (names.dropWhile (· ≠ name)).tail

theorem closed_append_left {names : List Name} {name : Name} (member : name ∈ names) :
    closed names name ++ left names name = names := by
  induction names with
  | nil => cases member
  | cons top names ih =>
    by_cases same : top = name
    · simp [closed, left, same]
    · have further := ih ((List.mem_cons.mp member).resolve_left (Ne.symm same))
      simpa [closed, left, same] using further

end Stack

/-- What may be written. The void elements have no end. -/
structure Allowlist where
  void : List Units
  allows : Piece → Prop
  text : ∀ content, allows (.text content)
  named : ∀ piece, allows piece → piece.Named
  ends : ∀ name, allows (.closeTag name) → name ∉ void

/-- What has been written so far, and the elements it leaves open. -/
structure Allowlist.Emitted (list : Allowlist) (written : List Piece) (names : List Units) :
    Prop where
  allowed : ∀ piece ∈ written, list.allows piece
  nested : unwind [] (written.filterMap (Piece.bracket list.void)) = some names
  pending : ∀ name ∈ names, list.allows (.closeTag name)

namespace Allowlist.Emitted
variable {list : Allowlist} {written : List Piece} {names : List Units}

theorem empty : list.Emitted [] [] := ⟨nofun, rfl, nofun⟩

theorem allowed_append (h : list.Emitted written names) {more : List Piece}
    (others : ∀ piece ∈ more, list.allows piece) : ∀ piece ∈ written ++ more, list.allows piece := by
  intro piece listed
  rcases List.mem_append.mp listed with old | new
  · exact h.allowed piece old
  · exact others piece new

theorem text (h : list.Emitted written names) (content : Units) :
    list.Emitted (written ++ [.text content]) names := by
  refine ⟨h.allowed_append fun piece new => ?_, ?_, h.pending⟩
  · obtain rfl := List.mem_singleton.mp new
    exact list.text content
  · rw [List.filterMap_append, unwind_append h.nested]
    rfl

theorem closes (h : list.Emitted written names) {inner outer : List Units}
    (same : inner ++ outer = names) : list.Emitted (written ++ inner.map .closeTag) outer := by
  subst same
  have pending : ∀ name ∈ inner, list.allows (.closeTag name) :=
    fun name member => h.pending name (List.mem_append_left _ member)
  refine ⟨h.allowed_append fun piece new => ?_, ?_, fun name member => h.pending name
    (List.mem_append_right _ member)⟩
  · obtain ⟨name, member, rfl⟩ := List.mem_map.mp new
    exact pending name member
  · have brackets : (inner.map Piece.closeTag).filterMap (Piece.bracket list.void) =
        inner.map Bracket.closes := by
      rw [List.filterMap_map, ← List.filterMap_eq_map]
      refine List.filterMap_congr fun name member => ?_
      simp [Piece.bracket, list.ends name (pending name member)]
    rw [List.filterMap_append, unwind_append h.nested, brackets, unwind_closes]

theorem opens (h : list.Emitted written names) {name : Units} {attributes : List Attribute}
    (allowed : list.allows (.openTag name attributes))
    (ends : name ∉ list.void → list.allows (.closeTag name)) :
    list.Emitted (written ++ [.openTag name attributes])
      (if name ∈ list.void then names else name :: names) := by
  refine ⟨h.allowed_append fun piece new => ?_, ?_, fun other member => ?_⟩
  · obtain rfl := List.mem_singleton.mp new
    exact allowed
  · rw [List.filterMap_append, unwind_append h.nested]
    by_cases single : name ∈ list.void
    · simp [Piece.bracket, single, unwind]
    · simp [Piece.bracket, single, unwind]
  · by_cases single : name ∈ list.void
    · rw [if_pos single] at member
      exact h.pending other member
    · rw [if_neg single] at member
      rcases List.mem_cons.mp member with rfl | old
      · exact ends single
      · exact h.pending other old

theorem tokenize (h : list.Emitted written names) :
    tokenize (write (written.map Piece.escape)) =
      some ((written.map Piece.escape).flatMap Piece.tokens) := by
  refine tokenize_write fun piece listed => ?_
  obtain ⟨original, present, rfl⟩ := List.mem_map.mp listed
  exact (list.named original (h.allowed original present)).legible

/-- With nothing left open, the tags are balanced, and no void element is closed. -/
theorem balanced (h : list.Emitted written []) :
    Balanced (((written.map Piece.escape).flatMap Piece.tokens).filterMap
        (HtmlToken.bracket list.void)) ∧
      ∀ name ∈ list.void, .endTag name ∉ (written.map Piece.escape).flatMap Piece.tokens := by
  constructor
  · rw [tokens_brackets, List.filterMap_map]
    have same : Piece.bracket list.void ∘ Piece.escape = Piece.bracket list.void :=
      funext fun piece => piece.bracket_escape list.void
    rw [same]
    exact unwind_eq_nil_iff.mp h.nested
  · intro name void listed
    obtain ⟨piece, present, token⟩ := List.mem_flatMap.mp listed
    obtain ⟨original, member, rfl⟩ := List.mem_map.mp present
    have allowed := h.allowed original member
    cases original with
    | text content => simp [Piece.escape, Piece.tokens] at token
    | openTag other attributes => simp [Piece.escape, Piece.tokens] at token
    | closeTag other =>
      obtain rfl : name = other := by simpa [Piece.escape, Piece.tokens] using token
      exact list.ends name allowed void

end Allowlist.Emitted
end Html
