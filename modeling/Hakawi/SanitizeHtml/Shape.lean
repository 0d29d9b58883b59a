import Hakawi.SanitizeHtml.Reading

/-!
# What the output looks like

Every piece is text, an allowlisted tag with allowlisted attributes or the end of
an allowlisted element, and the open elements are always the ones that the pieces
leave open.
-/

namespace SanitizeHtml

open Html

/-- The attribute is on the allowlist of the element. -/
def AllowedAttribute (elementName attributeName : Units) : Prop :=
  ∃ allowed, ALLOWED_ATTRIBUTES.lookup elementName = some allowed ∧ attributeName ∈ allowed

def Allowed : Piece → Prop
  | .text _ => True
  | .openTag name attributes =>
    name ∈ ALLOWED_TAGS ∧ ∀ attr ∈ attributes, AllowedAttribute name attr.name
  | .closeTag name => name ∈ ALLOWED_TAGS ∧ name ∉ VOID_TAGS

/-- A part of the output as the allowlists want it, with nothing raw in it. -/
def Clean : Piece → Prop
  | .text written => unit '<' ∉ written ∧ unit '>' ∉ written
  | .openTag name attributes =>
    name ∈ ALLOWED_TAGS ∧ ∀ attr ∈ attributes,
      AllowedAttribute name attr.name ∧ ¬ units "on" <+: attr.name ∧
        unit '<' ∉ attr.value ∧ unit '>' ∉ attr.value ∧ DOUBLE_QUOTE ∉ attr.value
  | .closeTag name => name ∈ ALLOWED_TAGS

theorem isName_of_allowed {name : Units} (h : name ∈ ALLOWED_TAGS) : isName name := by
  have all : ∀ name ∈ ALLOWED_TAGS, isName name := by decide
  exact all name h

theorem AllowedAttribute.name {elementName name : Units} (h : AllowedAttribute elementName name) :
    isName name ∧ ¬ units "on" <+: name := by
  have all : ∀ entry ∈ ALLOWED_ATTRIBUTES, ∀ name ∈ entry.2,
      isName name ∧ ¬ units "on" <+: name := by decide
  obtain ⟨allowed, found, member⟩ := h
  obtain ⟨before, after, split, -⟩ := List.lookup_eq_some_iff.mp found
  exact all (elementName, allowed) (by simp [split]) name member

theorem Allowed.named {piece : Piece} (h : Allowed piece) : piece.Named := by
  cases piece with
  | text content => trivial
  | openTag name attributes =>
    exact ⟨isName_of_allowed h.1, fun attr listed => (h.2 attr listed).name.1⟩
  | closeTag name => exact isName_of_allowed h.1

theorem Allowed.clean {piece : Piece} (h : Allowed piece) : Clean piece.escape := by
  cases piece with
  | text content => exact escapeText_clean content
  | openTag name attributes =>
    refine ⟨h.1, fun written listed => ?_⟩
    obtain ⟨attr, present, rfl⟩ := List.mem_map.mp listed
    have allowed := h.2 attr present
    exact ⟨allowed, allowed.name.2, escapeAttributeValue_clean attr.value⟩
  | closeTag name => exact h.1

theorem keptAttribute_name {elementName : Units} {allowed : List Units} {attr kept : Attribute}
    (h : keptAttribute elementName allowed attr = some kept) :
    kept.name = attr.name ∧ attr.name ∈ allowed := by
  unfold keptAttribute at h
  split at h
  · cases h
  · rename_i listed
    have member : attr.name ∈ allowed := by
      by_contra absent
      exact listed (Or.inl absent)
    refine ⟨?_, member⟩
    split at h
    · cases h
    · split at h
      · split at h
        · cases h
        · obtain rfl := Option.some.inj h
          rfl
      · split at h
        · split at h
          · cases h
          · obtain rfl := Option.some.inj h
            rfl
        · split at h
          · obtain rfl := Option.some.inj h
            rfl
          · cases h

theorem keptAttributes_allowed {elementName : Units} {attributes : List Attribute}
    {kept : Attribute} (h : kept ∈ keptAttributes elementName attributes) :
    AllowedAttribute elementName kept.name := by
  unfold keptAttributes at h
  cases found : ALLOWED_ATTRIBUTES.lookup elementName with
  | none => simp [found] at h
  | some allowed =>
    simp only [found] at h
    obtain ⟨attr, listed, keeps⟩ := List.mem_filterMap.mp h
    obtain ⟨same, member⟩ := keptAttribute_name keeps
    exact ⟨allowed, found, same ▸ member⟩

theorem keptTag_some {elementName : Units} {attributes : List Attribute} {piece : Piece}
    (h : keptTag elementName attributes = some piece) :
    piece = .openTag elementName (keptAttributes elementName attributes) := by
  unfold keptTag at h
  split at h
  · cases h
  · exact (Option.some.inj h).symm

/-- What the pass may write. -/
def allowlist : Allowlist where
  void := VOID_TAGS
  allows := Allowed
  text _ := trivial
  named _ allowed := allowed.named
  ends _ allowed := allowed.2

abbrev Emitted (written : List Piece) (names : List Units) : Prop := allowlist.Emitted written names

namespace Emitted
variable {written : List Piece} {names : List Units}

theorem opens (h : Emitted written names) {name : Units} {attributes : List Attribute}
    {piece : Piece} (allowed : name ∈ ALLOWED_TAGS) (kept : keptTag name attributes = some piece) :
    Emitted (written ++ [piece]) (if name ∈ VOID_TAGS then names else name :: names) := by
  obtain rfl := keptTag_some kept
  exact Allowlist.Emitted.opens h ⟨allowed, fun attr => keptAttributes_allowed⟩
    fun single => ⟨allowed, single⟩

theorem tag (h : Emitted written names) (tag : ParsedTag) :
    Emitted (written ++ (emitTag names tag).1) (emitTag names tag).2 := by
  have unchanged : Emitted (written ++ []) names := by simpa using h
  unfold emitTag
  split
  · exact unchanged
  · split
    · split
      · rename_i member
        exact Allowlist.Emitted.closes h (closed_append_left member)
      · exact unchanged
    · split
      · exact unchanged
      · rename_i listed
        cases kept : keptTag tag.name tag.attributes with
        | none => exact unchanged
        | some piece => exact opens h (not_not.mp listed) kept

theorem lexemes (h : Emitted written names) (read : List Lexeme) :
    Emitted (written ++ (emit names read).1) (emit names read).2 := by
  induction read generalizing written names with
  | nil => simpa [emit] using h
  | cons lexeme rest ih =>
    simp only [emit]
    rw [← List.append_assoc]
    refine ih ?_
    cases lexeme with
    | text content => exact Allowlist.Emitted.text h _
    | stray => exact Allowlist.Emitted.text h _
    | tag parsed => exact tag h parsed

end Emitted

theorem pieces_emitted (input : Units) : Emitted (pieces input) [] := by
  have emitted := Emitted.lexemes Allowlist.Emitted.empty (lexemes input 0)
  rw [List.nil_append] at emitted
  exact Allowlist.Emitted.closes emitted (List.append_nil _)

theorem tokenize_sanitizeHtml (input : Units) :
    tokenize (sanitizeHtml input) =
      some (((pieces input).map Piece.escape).flatMap Piece.tokens) := by
  rw [sanitizeHtml_eq]
  exact (pieces_emitted input).tokenize

/-- The output is escaped text and allowlisted tags, and it is read as such. -/
theorem sanitizeHtml_clean (input : Units) :
    ∃ written : List Piece, (∀ piece ∈ written, Clean piece) ∧
      sanitizeHtml input = write written ∧
      tokenize (sanitizeHtml input) = some (written.flatMap Piece.tokens) := by
  refine ⟨(pieces input).map Piece.escape, fun written listed => ?_, sanitizeHtml_eq input,
    tokenize_sanitizeHtml input⟩
  obtain ⟨piece, present, rfl⟩ := List.mem_map.mp listed
  exact ((pieces_emitted input).allowed piece present).clean

theorem Reachable.wrote {input : Units} {scan : Scan} (reached : Reachable input scan) :
    ∃ written names, scan.emission.Wrote written names := by
  induction reached with
  | opening => exact ⟨[], [], .empty⟩
  | @step scan reached more ih =>
    obtain ⟨written, names, wrote⟩ := ih
    have here : (⟨scan.cursor, scan.emission⟩ : Uncached.Scan).emission.Wrote written names := wrote
    have mirrors : scan.Mirrors ⟨scan.cursor, scan.emission⟩ := ⟨rfl, rfl⟩
    rw [(Scan.step_mirrors reached.sound.2 mirrors).emission]
    exact ⟨_, _, here.step more⟩

/-- The tags of the output are balanced, and the counts are right throughout. -/
theorem sanitizeHtml_balanced (input : Units) :
    (∃ tokens, tokenize (sanitizeHtml input) = some tokens ∧
      Balanced (tokens.filterMap (HtmlToken.bracket VOID_TAGS)) ∧
      ∀ name ∈ VOID_TAGS, .endTag name ∉ tokens) ∧
    ∀ scan, Reachable input scan → ∀ name, scan.emission.openElements.counts name =
      scan.emission.openElements.names.count name := by
  refine ⟨⟨_, tokenize_sanitizeHtml input, (pieces_emitted input).balanced⟩,
    fun scan reached name => ?_⟩
  obtain ⟨written, names, wrote⟩ := reached.wrote
  exact wrote.counted name

end SanitizeHtml
