import Hakawi.SanitizeHtml.Rereading
import Mathlib.Algebra.GroupWithZero.Nat

/-!
# Sanitizing twice

Text, dimensions and descriptions come out of a second pass as they went in. A URL
is trimmed before its references are resolved, so what a reference to white space
leaves at its ends is trimmed by the second pass only.
-/

namespace SanitizeHtml

open Html

section Shrinking
variable {α : Type} {f : α → Option α} {size : α → Nat}

/-- Where every entry stays or gets smaller, the list stays or gets smaller. -/
theorem filterMap_shrinks {list : List α}
    (h : ∀ a ∈ list, f a = some a ∨ (f a).elim 0 size < size a) :
    ((∀ a ∈ list, f a = some a) ∧ list.filterMap f = list) ∨
      ((list.filterMap f).map size).sum < (list.map size).sum := by
  induction list with
  | nil => exact Or.inl ⟨nofun, rfl⟩
  | cons a rest ih =>
    obtain ⟨first, others⟩ := List.forall_mem_cons.mp h
    rcases first with stays | smaller
    · rcases ih others with ⟨all, same⟩ | less
      · exact Or.inl ⟨List.forall_mem_cons.mpr ⟨stays, all⟩, by rw [List.filterMap_cons, stays, same]⟩
      · refine Or.inr ?_
        simp only [List.filterMap_cons, stays, List.map_cons, List.sum_cons]
        omega
    · have most : ((rest.filterMap f).map size).sum ≤ (rest.map size).sum := by
        rcases ih others with ⟨-, same⟩ | less
        · rw [same]
        · exact Nat.le_of_lt less
      refine Or.inr ?_
      cases found : f a with
      | none =>
        simp only [found, Option.elim] at smaller
        simp only [List.filterMap_cons, found, List.map_cons, List.sum_cons]
        omega
      | some b =>
        simp only [found, Option.elim] at smaller
        simp only [List.filterMap_cons, found, List.map_cons, List.sum_cons]
        omega

end Shrinking

/-- A URL that the policy lets through. -/
def UsableUrl (elementName : Units) (attr : Attribute) : Prop :=
  AllowedAttribute elementName attr.name ∧ attr.name ∈ URL_ATTRIBUTES ∧
    trim attr.value ≠ [] ∧ isUrlAllowed (trim attr.value) elementName

/-- An open tag that is written. An image needs a source. -/
def Opens (tag : ParsedTag) : Prop :=
  tag.closing = false ∧ tag.name ∈ ALLOWED_TAGS ∧ (tag.name = units "img" →
    ∃ attr ∈ tag.attributes, attr.name = units "src" ∧ UsableUrl tag.name attr)

/-- No reference in a URL that is written resolves to white space at its ends. -/
def Settled (input : Units) : Prop :=
  ∀ tag, .tag tag ∈ lexemes input 0 → Opens tag → ∀ attr ∈ tag.attributes,
    UsableUrl tag.name attr →
      trim (decodeUrlEntities (trim attr.value)) = decodeUrlEntities (trim attr.value)

section Attributes
variable {elementName : Units} {allowed : List Units}

theorem ATTRIBUTE_NAME_PATTERN_of_isName {name : Units} (h : isName name) :
    ATTRIBUTE_NAME_PATTERN name := by
  cases name with
  | nil => cases h
  | cons u rest =>
    obtain ⟨first, others⟩ := Bool.and_eq_true_iff.mp h
    rw [ATTRIBUTE_NAME_PATTERN, Bool.and_eq_true]
    constructor
    · exact ATTRIBUTE_PATTERN_knows.start u first
    · exact List.all_eq_true.mpr fun v hv =>
        ATTRIBUTE_PATTERN_knows.rest v (List.all_eq_true.mp others v hv)

/-- What is left of an attribute that is on the allowlist. -/
theorem keptAttribute_listed {attr : Attribute} (listed : attr.name ∈ allowed)
    (plain : isName attr.name ∧ ¬ units "on" <+: attr.name) :
    keptAttribute elementName allowed attr =
      if attr.name ∈ URL_ATTRIBUTES then
        if (trim attr.value).length = 0 ∨ !isUrlAllowed (trim attr.value) elementName then none
        else some ⟨attr.name, decodeUrlEntities (trim attr.value)⟩
      else if attr.name = units "width" ∨ attr.name = units "height" then
        if !DIMENSION_PATTERN (trim attr.value) then none else some ⟨attr.name, trim attr.value⟩
      else if attr.name = units "alt" then some ⟨attr.name, decodeTextEntities attr.value⟩
      else none := by
  have pattern := ATTRIBUTE_NAME_PATTERN_of_isName plain.1
  rw [keptAttribute, if_neg (by simp [listed, pattern]), if_neg plain.2]

theorem resolveUrlEntity_ne_nil (reference : Units) (semicolon : Bool) :
    resolveUrlEntity reference semicolon ≠ some [] := by
  have table : ∀ entry ∈ NAMED_ENTITIES, units entry.2 ≠ [] := by decide
  have named : ∀ name, namedEntity name ≠ some [] := by
    intro name
    unfold namedEntity
    split
    · decide
    · intro found
      obtain ⟨entry, first, empty⟩ := Option.map_eq_some_iff.mp found
      exact table entry (List.mem_of_find?_eq_some first) empty
  have number : ∀ reference, decodeNumericReference reference ≠ [] := by
    intro reference
    have decided : ∀ codePoint : Nat,
        (if codePoint > 0x10ffff then [0xfffd] else fromCodePoint codePoint) ≠ [] := by
      intro codePoint
      split
      · exact List.cons_ne_nil _ _
      · exact fromCodePoint_ne_nil codePoint
    exact decided _
  unfold resolveUrlEntity
  split
  · exact fun found => number reference (Option.some.inj found)
  · split
    · exact nofun
    · exact named _

theorem decodeUrlEntities_ne_nil {value : Units} (h : value ≠ []) : decodeUrlEntities value ≠ [] :=
  replaceReferences_ne_nil resolveUrlEntity_ne_nil h

theorem decodeUrlEntities_escape (value : Units) :
    decodeUrlEntities (escapeAttributeValue value) = value := resolvesUrl.attributeValue value

/-- The policy resolves the references of a URL that was written once more than it was. -/
theorem isUrlAllowed_escape (value elementName : Units) :
    isUrlAllowed (escapeAttributeValue (decodeUrlEntities value)) elementName =
      isUrlAllowed value elementName := by
  simp only [isUrlAllowed, decodeUrlEntities_escape]

theorem DIMENSION_PATTERN_plain {value : Units} (h : DIMENSION_PATTERN value) :
    ∀ u ∈ value, isSpace u = false ∧ escapeAttributeUnit u = [u] := by
  simp only [DIMENSION_PATTERN, Bool.and_eq_true, decide_eq_true_eq] at h
  exact dimension_plain h.2

/-- How long an attribute is written. -/
def writtenLength (attr : Attribute) : Nat := attr.escape.write.length

theorem writtenLength_eq (attr : Attribute) :
    writtenLength attr = attr.name.length + (escapeAttributeValue attr.value).length + 4 := by
  simp only [writtenLength, Attribute.escape, Attribute.write, List.length_append, List.length_cons,
    List.length_nil]
  omega

/-- A second pass keeps an attribute as it is, or a URL comes out shorter or not at all. -/
theorem keptAttribute_again {attr kept : Attribute}
    (h : keptAttribute elementName allowed attr = some kept) (listed : attr.name ∈ allowed)
    (plain : isName attr.name ∧ ¬ units "on" <+: attr.name) :
    if kept.name ∈ URL_ATTRIBUTES ∧ trim kept.value ≠ kept.value then
      (keptAttribute elementName allowed kept.escape).elim 0 writtenLength < writtenLength kept
    else keptAttribute elementName allowed kept.escape = some kept := by
  rw [keptAttribute_listed listed plain] at h
  split at h
  · rename_i url
    split at h
    · cases h
    · rename_i usable
      obtain ⟨nonempty, passes⟩ := not_or.mp usable
      obtain rfl := Option.some.inj h
      have value : trim (escapeAttributeValue (decodeUrlEntities (trim attr.value))) =
          escapeAttributeValue (trim (decodeUrlEntities (trim attr.value))) :=
        trim_escapeAttributeValue _
      have second : keptAttribute elementName allowed
          (⟨attr.name, decodeUrlEntities (trim attr.value)⟩ : Attribute).escape = _ :=
        keptAttribute_listed listed plain
      rw [second]
      simp only [Attribute.escape, if_pos url, value, decodeUrlEntities_escape]
      by_cases settled : trim (decodeUrlEntities (trim attr.value)) = decodeUrlEntities (trim attr.value)
      · have written : (escapeAttributeValue (decodeUrlEntities (trim attr.value))).length ≠ 0 := by
          have occupied : trim attr.value ≠ [] := fun empty => nonempty (by rw [empty]; rfl)
          have resolved := decodeUrlEntities_ne_nil occupied
          have least := length_le_escapeAttributeValue (decodeUrlEntities (trim attr.value))
          have positive := List.length_pos_iff.mpr resolved
          omega
        rw [if_neg fun both => both.2 settled, settled, isUrlAllowed_escape,
          if_neg (not_or.mpr ⟨written, passes⟩)]
      · rw [if_pos ⟨url, settled⟩]
        have shorter := escapeAttributeValue_trim_lt settled
        split
        · simp only [Option.elim, writtenLength_eq]
          omega
        · simp only [Option.elim, writtenLength_eq]
          omega
  · rename_i other
    split at h
    · rename_i dimension
      split at h
      · cases h
      · rename_i matches_
        obtain rfl := Option.some.inj h
        have same := DIMENSION_PATTERN_plain (by simpa using matches_)
        have written : escapeAttributeValue (trim attr.value) = trim attr.value :=
          escapeAttributeValue_plain fun u member => (same u member).2
        have trimmed : trim (trim attr.value) = trim attr.value :=
          trim_plain fun u member => (same u member).1
        have second : keptAttribute elementName allowed
            (⟨attr.name, trim attr.value⟩ : Attribute).escape = _ :=
          keptAttribute_listed listed plain
        rw [if_neg fun both => other both.1, second]
        simp only [Attribute.escape, if_neg other, if_pos dimension, written, trimmed,
          if_neg matches_]
    · rename_i neither
      split at h
      · rename_i description
        obtain rfl := Option.some.inj h
        have decoded : decodeTextEntities (escapeAttributeValue (decodeTextEntities attr.value)) =
            decodeTextEntities attr.value := resolvesText.attributeValue _
        have second : keptAttribute elementName allowed
            (⟨attr.name, decodeTextEntities attr.value⟩ : Attribute).escape = _ :=
          keptAttribute_listed listed plain
        rw [if_neg fun both => other both.1, second]
        simp only [Attribute.escape, if_neg other, if_neg neither, if_pos description, decoded]
      · cases h

end Attributes

/-- No URL among these attributes has white space at its ends. -/
def Trimmed (attributes : List Attribute) : Prop :=
  ∀ attr ∈ attributes, attr.name ∈ URL_ATTRIBUTES → trim attr.value = attr.value

def pieceLength (piece : Piece) : Nat := piece.escape.write.length

theorem pieceLength_openTag (name : Units) (attributes : List Attribute) :
    pieceLength (.openTag name attributes) =
      name.length + (attributes.map writtenLength).sum + 2 := by
  simp only [pieceLength, Piece.escape, Piece.write, List.length_append, List.length_cons,
    List.length_nil, List.flatMap_map, List.length_flatMap]
  rw [show (fun attr : Attribute => attr.escape.write.length) = writtenLength from rfl]
  omega

theorem length_write (pieces : List Piece) :
    (write (pieces.map Piece.escape)).length = (pieces.map pieceLength).sum := by
  rw [write, List.flatMap_map, List.length_flatMap]
  rfl

/-- What is kept of attributes that were kept before. -/
theorem keptAttributes_again (elementName : Units) (attributes : List Attribute) :
    let kept := keptAttributes elementName attributes
    (Trimmed kept → keptAttributes elementName (kept.map Attribute.escape) = kept) ∧
      (¬ Trimmed kept →
        ((keptAttributes elementName (kept.map Attribute.escape)).map writtenLength).sum <
          (kept.map writtenLength).sum) := by
  unfold keptAttributes
  cases found : ALLOWED_ATTRIBUTES.lookup elementName with
  | none => exact ⟨fun _ => rfl, fun untrimmed => absurd nofun untrimmed⟩
  | some allowed =>
    dsimp only
    rw [List.filterMap_map]
    have each : ∀ kept ∈ attributes.filterMap (keptAttribute elementName allowed),
        if kept.name ∈ URL_ATTRIBUTES ∧ trim kept.value ≠ kept.value then
          (keptAttribute elementName allowed kept.escape).elim 0 writtenLength < writtenLength kept
        else keptAttribute elementName allowed kept.escape = some kept := by
      intro kept member
      obtain ⟨attr, -, keeps⟩ := List.mem_filterMap.mp member
      obtain ⟨same, listed⟩ := keptAttribute_name keeps
      exact keptAttribute_again keeps listed (AllowedAttribute.name ⟨allowed, found, listed⟩)
    constructor
    · intro trimmed
      refine (List.filterMap_congr fun kept member => ?_).trans List.filterMap_some
      have here := each kept member
      rwa [if_neg fun both => both.2 (trimmed kept member both.1)] at here
    · intro untrimmed
      have shrinks : ∀ kept ∈ attributes.filterMap (keptAttribute elementName allowed),
          (keptAttribute elementName allowed ∘ Attribute.escape) kept = some kept ∨
            ((keptAttribute elementName allowed ∘ Attribute.escape) kept).elim 0 writtenLength <
              writtenLength kept := by
        intro kept member
        have here := each kept member
        split at here
        · exact Or.inr here
        · exact Or.inl here
      rcases filterMap_shrinks shrinks with ⟨all, -⟩ | less
      · refine absurd (fun kept member url => ?_) untrimmed
        by_contra space
        have here := each kept member
        have stays : keptAttribute elementName allowed kept.escape = some kept := all kept member
        rw [if_pos ⟨url, space⟩, stays] at here
        exact lt_irrefl _ here
      · exact less

/-- A tag comes out of a second pass as it was, or shorter, or not at all. -/
theorem again_openTag {elementName : Units} {attributes kept : List Attribute}
    (h : keptTag elementName attributes = some (.openTag elementName kept)) :
    (Trimmed kept → again (.openTag elementName kept) = some (.openTag elementName kept)) ∧
      (¬ Trimmed kept → (again (.openTag elementName kept)).elim 0 pieceLength <
        pieceLength (.openTag elementName kept)) := by
  have same : kept = keptAttributes elementName attributes := by
    have shape := keptTag_some h
    simpa using shape
  obtain ⟨stays, shrinks⟩ := keptAttributes_again elementName attributes
  rw [← same] at stays shrinks
  constructor
  · intro trimmed
    have sourced : ¬ (elementName = units "img" ∧
        ∀ attr ∈ keptAttributes elementName attributes, attr.name ≠ units "src") := by
      intro bare
      rw [keptTag, if_pos bare] at h
      cases h
    rw [← same] at sourced
    rw [again, keptTag, stays trimmed, if_neg sourced]
  · intro untrimmed
    have less := shrinks untrimmed
    rw [again, keptTag]
    split
    · simp only [Option.elim, pieceLength_openTag]
      omega
    · simp only [Option.elim, pieceLength_openTag]
      omega

section Tags

theorem mem_emitTag {names : List Units} {tag : ParsedTag} {name : Units}
    {attributes : List Attribute} :
    .openTag name attributes ∈ (emitTag names tag).1 ↔ tag.closing = false ∧
      tag.name ∈ ALLOWED_TAGS ∧ keptTag tag.name tag.attributes = some (.openTag name attributes) := by
  have kept : ∀ name ∈ ALLOWED_TAGS, ¬ (name ∈ DROPPED_VOID_TAGS ∨ name ∈ DROPPED_WITH_CONTENT) := by
    decide
  unfold emitTag
  split
  · rename_i dropped
    simp only [List.not_mem_nil, false_iff]
    exact fun both => kept tag.name both.2.1 dropped
  · split
    · rename_i closing
      split <;> simp [closing]
    · rename_i opening
      split
      · rename_i unlisted
        simp [unlisted]
      · rename_i listed
        cases found : keptTag tag.name tag.attributes with
        | none => simp
        | some piece => simp [opening, not_not.mp listed, eq_comm]

theorem mem_emit {names : List Units} {read : List Lexeme} {name : Units}
    {attributes : List Attribute} :
    .openTag name attributes ∈ (emit names read).1 ↔ ∃ tag, .tag tag ∈ read ∧
      tag.closing = false ∧ tag.name ∈ ALLOWED_TAGS ∧
        keptTag tag.name tag.attributes = some (.openTag name attributes) := by
  induction read generalizing names with
  | nil => simp [emit]
  | cons lexeme rest ih =>
    rw [emit_cons, List.mem_append, ih]
    cases lexeme with
    | text content => simp [Lexeme.emit]
    | stray => simp [Lexeme.emit]
    | tag parsed => simp [Lexeme.emit, mem_emitTag, or_and_right, exists_or]

/-- The open tags of the output are those that the input has and the pass keeps. -/
theorem mem_pieces {input name : Units} {attributes : List Attribute} :
    .openTag name attributes ∈ pieces input ↔ ∃ tag, .tag tag ∈ lexemes input 0 ∧
      tag.closing = false ∧ tag.name ∈ ALLOWED_TAGS ∧
        keptTag tag.name tag.attributes = some (.openTag name attributes) := by
  rw [pieces, List.mem_append, mem_emit]
  simp

theorem mem_keptAttributes_url {elementName : Units} {attributes : List Attribute}
    {kept : Attribute} :
    kept ∈ keptAttributes elementName attributes ∧ kept.name ∈ URL_ATTRIBUTES ↔
      ∃ attr ∈ attributes, UsableUrl elementName attr ∧
        kept = ⟨attr.name, decodeUrlEntities (trim attr.value)⟩ := by
  constructor
  · rintro ⟨member, url⟩
    unfold keptAttributes at member
    cases found : ALLOWED_ATTRIBUTES.lookup elementName with
    | none => simp [found] at member
    | some allowed =>
      simp only [found] at member
      obtain ⟨attr, present, keeps⟩ := List.mem_filterMap.mp member
      obtain ⟨same, listed⟩ := keptAttribute_name keeps
      have allows : AllowedAttribute elementName attr.name := ⟨allowed, found, listed⟩
      rw [same] at url
      rw [keptAttribute_listed listed allows.name, if_pos url] at keeps
      split at keeps
      · cases keeps
      · rename_i usable
        obtain rfl := Option.some.inj keeps
        refine ⟨attr, present, ⟨allows, url, ?_, ?_⟩, rfl⟩
        · rintro empty
          exact usable (Or.inl (by rw [empty]; rfl))
        · by_contra refused
          exact usable (Or.inr (by simpa using refused))
  · rintro ⟨attr, present, ⟨allows, url, nonempty, passes⟩, rfl⟩
    refine ⟨?_, url⟩
    obtain ⟨allowed, found, listed⟩ := allows
    simp only [keptAttributes, found]
    refine List.mem_filterMap.mpr ⟨attr, present, ?_⟩
    rw [keptAttribute_listed listed (AllowedAttribute.name ⟨allowed, found, listed⟩), if_pos url,
      if_neg]
    simp only [nonempty, passes, List.length_eq_zero_iff, Bool.not_true, Bool.false_eq_true, or_self,
      not_false_eq_true]

theorem opens_iff {tag : ParsedTag} :
    Opens tag ↔ tag.closing = false ∧ tag.name ∈ ALLOWED_TAGS ∧
      keptTag tag.name tag.attributes =
        some (.openTag tag.name (keptAttributes tag.name tag.attributes)) := by
  have source : units "src" ∈ URL_ATTRIBUTES := by decide
  refine and_congr_right fun _ => and_congr_right fun _ => ?_
  rw [keptTag]
  constructor
  · intro sourced
    rw [if_neg]
    rintro ⟨image, bare⟩
    obtain ⟨attr, present, name, usable⟩ := sourced image
    obtain ⟨member, -⟩ := mem_keptAttributes_url.mpr ⟨attr, present, usable, rfl⟩
    exact bare _ member name
  · intro kept image
    by_contra without
    have bare : ∀ attr ∈ keptAttributes tag.name tag.attributes, attr.name ≠ units "src" := by
      intro kept member name
      obtain ⟨attr, present, usable, same⟩ := mem_keptAttributes_url.mp ⟨member, name ▸ source⟩
      rw [same] at name
      exact without ⟨attr, present, name, usable⟩
    rw [if_pos ⟨image, bare⟩] at kept
    cases kept

theorem settled_iff {input : Units} :
    Settled input ↔ ∀ name attributes, .openTag name attributes ∈ pieces input →
      Trimmed attributes := by
  constructor
  · intro settled name attributes member kept listed url
    obtain ⟨tag, present, opening, allowed, keeps⟩ := mem_pieces.mp member
    have shape := keptTag_some keeps
    obtain ⟨rfl, rfl⟩ := Piece.openTag.inj shape
    obtain ⟨attr, original, usable, rfl⟩ := mem_keptAttributes_url.mp ⟨listed, url⟩
    exact settled tag present (opens_iff.mpr ⟨opening, allowed, keeps⟩) attr original usable
  · intro trimmed tag present opens attr original usable
    have member := mem_pieces.mpr ⟨tag, present, opens_iff.mp opens⟩
    obtain ⟨listed, url⟩ := mem_keptAttributes_url.mpr ⟨attr, original, usable, rfl⟩
    exact trimmed _ _ member _ listed url

end Tags

/-- Sanitizing is idempotent on exactly those inputs whose URLs are settled. -/
theorem sanitizeHtml_idempotent_iff (input : Units) :
    sanitizeHtml (sanitizeHtml input) = sanitizeHtml input ↔ Settled input := by
  have twice : sanitizeHtml (sanitizeHtml input) =
      write (((pieces input).filterMap again).map Piece.escape) := by
    rw [sanitizeHtml_eq input, sanitizeHtml_written (pieces_emitted input)]
  have shrinks : ∀ piece ∈ pieces input, again piece = some piece ∨
      (again piece).elim 0 pieceLength < pieceLength piece := by
    intro piece member
    cases piece with
    | text content => exact Or.inl rfl
    | closeTag name => exact Or.inl rfl
    | openTag name attributes =>
      obtain ⟨tag, -, -, -, keeps⟩ := mem_pieces.mp member
      obtain ⟨rfl, -⟩ := Piece.openTag.inj (keptTag_some keeps)
      obtain ⟨stays, less⟩ := again_openTag keeps
      by_cases trimmed : Trimmed attributes
      · exact Or.inl (stays trimmed)
      · exact Or.inr (less trimmed)
  rw [settled_iff, twice, sanitizeHtml_eq input]
  constructor
  · intro same name attributes member
    by_contra untrimmed
    obtain ⟨tag, -, -, -, keeps⟩ := mem_pieces.mp member
    obtain ⟨rfl, -⟩ := Piece.openTag.inj (keptTag_some keeps)
    have less := (again_openTag keeps).2 untrimmed
    rcases filterMap_shrinks shrinks with ⟨all, -⟩ | shorter
    · rw [all _ member] at less
      exact lt_irrefl _ less
    · rw [← length_write, ← length_write, same] at shorter
      exact lt_irrefl _ shorter
  · intro trimmed
    rcases filterMap_shrinks shrinks with ⟨-, same⟩ | shorter
    · rw [same]
    · exfalso
      have stays : (pieces input).filterMap again = pieces input := by
        refine (List.filterMap_congr fun piece member => ?_).trans List.filterMap_some
        cases piece with
        | text content => rfl
        | closeTag name => rfl
        | openTag name attributes =>
          obtain ⟨tag, -, -, -, keeps⟩ := mem_pieces.mp member
          obtain ⟨rfl, -⟩ := Piece.openTag.inj (keptTag_some keeps)
          exact (again_openTag keeps).1 (trimmed _ _ member)
      rw [stays] at shorter
      exact lt_irrefl _ shorter

/-- A reference to a space in front of a URL outlives the first pass only. -/
theorem sanitizeHtml_not_idempotent :
    sanitizeHtml (sanitizeHtml (units "<a href=\"&#32;http://x\">t</a>")) ≠
      sanitizeHtml (units "<a href=\"&#32;http://x\">t</a>") := by
  decide +kernel

end SanitizeHtml
