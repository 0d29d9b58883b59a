import Hakawi.RenderHtml.Sanitizer

/-!
# What the render layer emits

Whatever the pass does, its output so far was written from allowlisted pieces, and
its stack has the elements that they leave open.
-/

namespace RenderHtml

open Html

/-- The attributes that are read of an element. -/
def AllowedAttribute (elementName attributeName : Units) : Prop :=
  (elementName = units "a" ∧ attributeName = units "href") ∨
    (elementName = units "img" ∧ attributeName ∈ ["src", "alt", "width", "height"].map units)

def Allowed : Piece → Prop
  | .text _ => True
  | .openTag name attributes =>
    name ∈ ALLOWED_TAGS ∧ ∃ attrs, keptAttributes name attrs = some attributes
  | .closeTag name => name ∈ ALLOWED_TAGS ∧ name ∉ VOID_TAGS

/-- A part of the output as the allowlists want it, with nothing raw in it. -/
def Clean : Piece → Prop
  | .text written => unit '<' ∉ written ∧ unit '>' ∉ written
  | .openTag name attributes =>
    name ∈ ALLOWED_TAGS ∧ ∀ attr ∈ attributes, AllowedAttribute name attr.name ∧
      unit '<' ∉ attr.value ∧ unit '>' ∉ attr.value ∧ DOUBLE_QUOTE ∉ attr.value
  | .closeTag name => name ∈ ALLOWED_TAGS

theorem isName_of_allowed {name : Units} (h : name ∈ ALLOWED_TAGS) : isName name := by
  have all : ∀ name ∈ ALLOWED_TAGS, isName name := by decide
  exact all name h

theorem AllowedAttribute.name {elementName name : Units} (h : AllowedAttribute elementName name) :
    isName name := by
  have image : ∀ name ∈ ["src", "alt", "width", "height"].map units, isName name := by decide
  rcases h with ⟨-, rfl⟩ | ⟨-, listed⟩
  · decide
  · exact image name listed

theorem keptDimension_name {attrs : List Attribute} {dimension : Units} {attr : Attribute}
    (h : attr ∈ keptDimension attrs dimension) : attr.name = dimension := by
  rcases keptDimension_cases attrs dimension with absent | ⟨value, -, present⟩
  · rw [absent] at h
    cases h
  · rw [present] at h
    rw [List.mem_singleton.mp h]

theorem keptAttributes_allowed {tag : Units} {attrs kept : List Attribute}
    (h : keptAttributes tag attrs = some kept) : ∀ attr ∈ kept, AllowedAttribute tag attr.name := by
  unfold keptAttributes at h
  split at h
  · rename_i anchor
    dsimp only at h
    split at h
    · obtain rfl := Option.some.inj h
      intro attr member
      rw [List.mem_singleton.mp member]
      exact Or.inl ⟨anchor, rfl⟩
    · obtain rfl := Option.some.inj h
      exact nofun
  · split at h
    · rename_i image
      dsimp only at h
      split at h
      · cases h
      · obtain rfl := Option.some.inj h
        intro attr member
        refine Or.inr ⟨image, ?_⟩
        simp only [List.mem_append, List.mem_cons, List.mem_map, Option.mem_toList] at member
        rcases member with ((rfl | ⟨alt, -, rfl⟩) | width) | height
        · exact List.mem_map_of_mem (by decide)
        · exact List.mem_map_of_mem (by decide)
        · rw [keptDimension_name width]
          decide
        · rw [keptDimension_name height]
          decide
    · obtain rfl := Option.some.inj h
      exact nofun

theorem Allowed.named {piece : Piece} (h : Allowed piece) : piece.Named := by
  cases piece with
  | text content => trivial
  | openTag name attributes =>
    obtain ⟨listed, attrs, kept⟩ := h
    exact ⟨isName_of_allowed listed, fun attr member => (keptAttributes_allowed kept attr member).name⟩
  | closeTag name => exact isName_of_allowed h.1

theorem Allowed.clean {piece : Piece} (h : Allowed piece) : Clean piece.escape := by
  cases piece with
  | text content => exact escapeText_clean content
  | openTag name attributes =>
    obtain ⟨listed, attrs, kept⟩ := h
    refine ⟨listed, fun written member => ?_⟩
    obtain ⟨attr, present, rfl⟩ := List.mem_map.mp member
    exact ⟨keptAttributes_allowed kept attr present, escapeAttributeValue_clean attr.value⟩
  | closeTag name => exact h.1

/-- What the pass may write. -/
def allowlist : Allowlist where
  void := VOID_TAGS
  allows := Allowed
  text _ := trivial
  named _ allowed := allowed.named
  ends _ allowed := allowed.2

/-- The output was written from allowed pieces, and the stack has what they leave open. -/
def Scan.Proper (scan : Scan) : Prop :=
  ∃ written, scan.out = write (written.map Piece.escape) ∧ allowlist.Emitted written scan.stack

namespace Scan.Proper
variable {scan : Scan} {input : Units}

theorem opening : Scan.opening.Proper := ⟨[], rfl, .empty⟩

theorem flushText (h : scan.Proper) : scan.flushText.Proper := by
  obtain ⟨written, output, emitted⟩ := h
  unfold Scan.flushText
  split
  · exact ⟨written, output, emitted⟩
  · refine ⟨written ++ [.text (decodeEntities scan.text)], ?_, emitted.text _⟩
    simp [output, write, Piece.escape, Piece.write]

theorem flatMap_writeClosing (names : List Units) :
    names.flatMap writeClosing = write ((names.map Piece.closeTag).map Piece.escape) := by
  rw [write, List.map_map, List.flatMap_map]
  refine List.flatMap_congr fun name _ => ?_
  simp [Piece.escape, Piece.write, writeClosing, units, unit]

theorem closeTag (h : scan.Proper) (name : Units) : (scan.closeTag name).Proper := by
  obtain ⟨written, output, emitted⟩ := h
  unfold Scan.closeTag
  split
  · exact ⟨written, output, emitted⟩
  · split
    · exact ⟨written, output, emitted⟩
    · rename_i member
      refine ⟨written ++ (closed scan.stack name).map .closeTag, ?_,
        emitted.closes (closed_append_left (not_not.mp member))⟩
      rw [List.map_append, write_append, ← flatMap_writeClosing, output]

theorem openTag (h : scan.Proper) (inner : Units) : (scan.openTag inner).Proper := by
  obtain ⟨written, output, emitted⟩ := h
  unfold Scan.openTag
  dsimp only
  split
  · exact ⟨written, output, emitted⟩
  · split
    · exact ⟨written, output, emitted⟩
    · split
      · exact ⟨written, output, emitted⟩
      · rename_i listed
        rw [renderAttributes_eq]
        cases kept : keptAttributes (openName inner)
            (parseAttributes (inner.drop (openName inner).length)) with
        | none => exact ⟨written, output, emitted⟩
        | some attributes =>
          refine ⟨written ++ [.openTag (openName inner) attributes], ?_,
            emitted.opens ⟨not_not.mp listed, _, kept⟩ fun single => ⟨not_not.mp listed, single⟩⟩
          simp [output, write, Piece.escape, Piece.write]

theorem drop (h : scan.Proper) (name : Units) : (scan.drop input name).Proper := by
  unfold Scan.drop
  split
  · exact h
  · split
    · split <;> exact h
    · exact h

theorem markup (h : scan.Proper) : (scan.markup input).Proper := by
  have flushed := h.flushText
  unfold Scan.markup
  dsimp only
  split
  · exact flushed
  · split
    · exact flushed
    · split
      · exact flushed
      · split
        · exact h
        · split
          · exact h
          · rename_i stop ends
            have moved : ({ scan.flushText with i := stop } : Scan).Proper := flushed
            split
            · exact moved.closeTag _
            · exact moved.openTag _

/-- Every step keeps the output proper. -/
theorem step (h : scan.Proper) : (scan.step input).Proper := by
  unfold Scan.step
  split
  · exact h.drop _
  · split
    · exact h
    · rename_i tagStart found
      dsimp only
      split
      · have moved : ({ scan with
          text := scan.text ++ slice input scan.i tagStart, i := tagStart } : Scan).Proper := h
        exact moved.markup
      · exact h.markup

theorem run (h : scan.Proper) : (scan.run input).Proper := by
  fun_induction Scan.run input scan with
  | case1 scan more ih => exact ih h.step
  | case2 scan finished => exact h

theorem finish (h : scan.Proper) : ∃ written, scan.finish = write (written.map Piece.escape) ∧
    allowlist.Emitted written [] := by
  obtain ⟨written, output, emitted⟩ := h.flushText
  refine ⟨written ++ scan.flushText.stack.map .closeTag, ?_, emitted.closes (List.append_nil _)⟩
  rw [Scan.finish, List.map_append, write_append, ← flatMap_writeClosing, output]

end Scan.Proper

/-- The output is written from allowed pieces that leave nothing open. -/
theorem sanitizeHtml_emitted (input : Units) : ∃ written,
    sanitizeHtml input = write (written.map Piece.escape) ∧ allowlist.Emitted written [] :=
  Scan.Proper.opening.run.finish

end RenderHtml
