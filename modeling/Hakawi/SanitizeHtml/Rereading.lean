import Hakawi.SanitizeHtml.Shape

/-!
# The pass over its own output

A tag that was written is found where it stands and read as it was written, so on
such an input the pass decides about one piece at a time.
-/

namespace SanitizeHtml

open Html

section Positions
variable {source : Units}

theorem findTagEnd_eq (position : Nat) :
    Uncached.findTagEnd source position =
      (tagEnd none (source.drop position)).map (position + ·) := by
  fun_induction Uncached.findTagEnd source position with
  | case1 position within quote unclosed =>
    have absent : search [source[position]] (source.drop (position + 1)) = none :=
      Option.map_eq_none_iff.mp unclosed
    have opens : source[position] = DOUBLE_QUOTE ∨ source[position] = SINGLE_QUOTE := by
      simpa [isQuote] using quote
    rw [List.drop_eq_getElem_cons within, tagEnd, if_pos (by simpa using opens), tagEnd_quoted,
      absent]
    rfl
  | case2 position within quote closingQuote closed ih =>
    obtain ⟨k, found, rfl⟩ := Option.map_eq_some_iff.mp closed
    have opens : source[position] = DOUBLE_QUOTE ∨ source[position] = SINGLE_QUOTE := by
      simpa [isQuote] using quote
    rw [ih, List.drop_eq_getElem_cons within, tagEnd, if_pos (by simpa using opens), tagEnd_quoted,
      found, Option.bind_some, List.drop_drop, Option.map_map, Option.map_map,
      show position + 1 + (k + 1) = position + 1 + k + 1 by omega]
    refine congrArg (Option.map · _) (funext fun n => ?_)
    simp only [Function.comp_apply]
    omega
  | case3 position within quote gt =>
    have other : ¬ (source[position] = DOUBLE_QUOTE ∨ source[position] = SINGLE_QUOTE) := by
      simpa [isQuote] using quote
    rw [List.drop_eq_getElem_cons within, tagEnd, if_neg (by simpa using other), if_pos gt]
    rfl
  | case4 position within quote gt ih =>
    have other : ¬ (source[position] = DOUBLE_QUOTE ∨ source[position] = SINGLE_QUOTE) := by
      simpa [isQuote] using quote
    rw [ih, List.drop_eq_getElem_cons within, tagEnd, if_neg (by simpa using other), if_neg gt,
      Option.map_map]
    refine congrArg (Option.map · _) (funext fun n => ?_)
    simp only [Function.comp_apply]
    omega
  | case5 position beyond =>
    rw [List.drop_eq_nil_of_le (Nat.le_of_not_lt beyond)]
    rfl

theorem ATTRIBUTE_PATTERN_knows : ATTRIBUTE_PATTERN.Knows := by
  constructor
  · decide
  · intro u lower
    simp [ATTRIBUTE_PATTERN, isNameStart, isLetter, lower]
  · intro u part
    simp only [isNameUnit, Bool.or_eq_true] at part
    rcases part with lower | digit
    · simp [ATTRIBUTE_PATTERN, isNameRest, isAlphanumeric, isLetter, lower]
    · simp [ATTRIBUTE_PATTERN, isNameRest, isAlphanumeric, digit]
  · decide

theorem TAG_NAME_PATTERN_written {position : Nat} {name rest : Units} (named : isName name)
    (h : source.drop position = name ++ rest) (ends : ∀ u ∈ rest.head?, isNameRest u = false) :
    TAG_NAME_PATTERN source position = some name := by
  cases name with
  | nil => cases named
  | cons u tail =>
    obtain ⟨first, others⟩ := Bool.and_eq_true_iff.mp named
    have run : (tail ++ rest).takeWhile isNameRest = tail := by
      refine takeWhile_append_stop ?_ fun v hv => by simp [ends v hv]
      exact List.all_eq_true.mpr fun v hv =>
        ATTRIBUTE_PATTERN_knows.rest v (List.all_eq_true.mp others v hv)
    have letter : isLetter u := by simp [isLetter, first]
    rw [TAG_NAME_PATTERN, h, List.cons_append]
    simp [letter, run]

/-- A tag that was written is read back. -/
theorem readTag_written {position : Nat} {closing : Bool} {name : Units}
    {attributes : List Attribute} {rest : Units}
    (h : source.drop position = tagText closing name attributes ++ rest) (named : isName name)
    (plain : ∀ attr ∈ attributes, isName attr.name ∧ DOUBLE_QUOTE ∉ attr.value) :
    Uncached.readTag source position = some ⟨name, closing, attributes,
      position + 1 + closing.toNat + name.length + (attributes.flatMap Attribute.write).length⟩ := by
  have mark : isClosing source position = closing := by
    rw [isClosing, getElem?_of_drop h 1]
    cases closing with
    | true => rfl
    | false =>
      cases name with
      | nil => cases named
      | cons u tail =>
        have other : u ≠ unit '/' :=
          isNameUnit_ne (isNameUnit_of_isName named u List.mem_cons_self) (by decide)
        simp [tagText, other]
  have opening : source.drop (position + 1 + closing.toNat) =
      name ++ (attributes.flatMap Attribute.write ++ unit '>' :: rest) := by
    cases closing with
    | true =>
      have start : source.drop position = [unit '<', unit '/'] ++
          (name ++ (attributes.flatMap Attribute.write ++ unit '>' :: rest)) := by
        simp [h, tagText]
      exact drop_behind start
    | false =>
      have start : source.drop position = [unit '<'] ++
          (name ++ (attributes.flatMap Attribute.write ++ unit '>' :: rest)) := by
        simp [h, tagText]
      exact drop_behind start
  have behind := drop_behind opening
  have read := TAG_NAME_PATTERN_written named opening fun u hu => by
    rcases head?_attributes hu with rfl | rfl <;> decide
  have ends : Uncached.findTagEnd source (position + 1 + closing.toNat + name.length) =
      some (position + 1 + closing.toNat + name.length +
        (attributes.flatMap Attribute.write).length) := by
    rw [findTagEnd_eq, behind, tagEnd_attributes plain, Option.map_some]
  have inner := slice_of_drop behind
  rw [Uncached.readTag, mark, read]
  simp only [ends, Option.map_some, parseTag, mark, inner, if_neg (getLast?_attributes attributes),
    AttributePattern.lowerCase_name (isNameUnit_of_isName named), parseAttributes,
    ATTRIBUTE_PATTERN_knows.readAll plain]

theorem skipDeclaration_written {position : Nat} {closing : Bool} {name : Units}
    {attributes : List Attribute} {rest : Units}
    (h : source.drop position = tagText closing name attributes ++ rest) (named : isName name) :
    skipDeclaration source position = none := by
  have second : ∃ u, source[position + 1]? = some u ∧ (u = unit '/' ∨ isNameUnit u) := by
    rw [getElem?_of_drop h 1]
    cases closing with
    | true => exact ⟨unit '/', rfl, Or.inl rfl⟩
    | false =>
      cases name with
      | nil => cases named
      | cons u tail =>
        exact ⟨u, rfl, Or.inr (isNameUnit_of_isName named u List.mem_cons_self)⟩
  obtain ⟨u, here, kind⟩ := second
  have apart : u ≠ unit '!' ∧ u ≠ unit '?' := by
    rcases kind with rfl | part
    · decide
    · exact ⟨isNameUnit_ne part (by decide), isNameUnit_ne part (by decide)⟩
  have declares : ∀ needle : Units, startsWith source (unit '<' :: unit '!' :: needle) position =
      false := by
    intro needle
    rw [startsWith, decide_eq_false_iff_not]
    rintro ⟨others, same⟩
    have other : source[position + 1]? = some (unit '!') := by
      rw [getElem?_of_drop same.symm 1]
      rfl
    rw [here] at other
    exact apart.1 (Option.some.inj other)
  have comment : startsWith source (units "<!--") position = false := declares (units "--")
  have cdata : startsWith source (units "<![CDATA[") position = false := declares (units "[CDATA[")
  simp [skipDeclaration, comment, cdata, here, apart]

theorem dropsContent_allowed (tag : ParsedTag) (allowed : tag.name ∈ ALLOWED_TAGS) :
    dropsContent tag = false := by
  have kept : ∀ name ∈ ALLOWED_TAGS, name ∉ DROPPED_WITH_CONTENT := by decide
  simp [dropsContent, kept tag.name allowed]

/-- Text and a tag behind it, as they were written. -/
theorem lexemes_written {position : Nat} {before : Units} {closing : Bool} {name : Units}
    {attributes : List Attribute} {rest : Units} (text : unit '<' ∉ before)
    (h : source.drop position = before ++ (tagText closing name attributes ++ rest))
    (allowed : name ∈ ALLOWED_TAGS)
    (plain : ∀ attr ∈ attributes, isName attr.name ∧ DOUBLE_QUOTE ∉ attr.value) :
    ∃ stop next, source.drop next = rest ∧ lexemes source position =
      (if before = [] then [] else [.text before]) ++
        .tag ⟨name, closing, attributes, stop⟩ :: lexemes source next := by
  have named := isName_of_allowed allowed
  have found : indexOf source (units "<") position = some (position + before.length) :=
    indexOf_unit (u := unit '<') h text
  have more : position < source.length := by
    by_contra beyond
    rw [List.drop_eq_nil_of_le (Nat.le_of_not_lt beyond)] at h
    simp [tagText] at h
  have start := drop_behind h
  have prior : (if position + before.length > position then
      [Lexeme.text (slice source position (position + before.length))] else []) =
        if before = [] then [] else [.text before] := by
    rw [slice_of_drop h]
    by_cases empty : before = []
    · simp [empty]
    · have positive := List.length_pos_iff.mpr empty
      rw [if_pos (by omega), if_neg empty]
  obtain ⟨tag, read⟩ : ∃ tag, Uncached.readTag source (position + before.length) = some tag :=
    ⟨_, readTag_written start named plain⟩
  have same := readTag_written start named plain
  rw [read] at same
  refine ⟨tag.stop, tag.stop + 1, ?_, ?_⟩
  · have behind := drop_behind start
    obtain rfl := Option.some.inj same
    rw [← behind]
    congr 1
    cases closing <;> simp [tagText] <;> omega
  · obtain rfl := Option.some.inj same
    rw [lexemes, dif_pos more]
    simp only [nextLexemes, found, skipDeclaration_written start named, read, prior, afterTag,
      dropsContent_allowed ⟨name, closing, attributes, _⟩ allowed, List.append_assoc]
    rfl

theorem lexemes_text {position : Nat} {before : Units} (text : unit '<' ∉ before)
    (h : source.drop position = before) :
    lexemes source position = if before = [] then [] else [.text before] := by
  subst h
  by_cases more : position < source.length
  · have occupied : source.drop position ≠ [] := by
      intro empty
      have beyond := List.drop_eq_nil_iff.mp empty
      omega
    have whole : slice source position source.length = source.drop position := by
      rw [slice, List.take_of_length_le (by simp)]
    have none_ : indexOf source (units "<") position = none := indexOf_unit_none text
    rw [lexemes, dif_pos more, nextLexemes, none_, lexemes, dif_neg (lt_irrefl _), if_neg occupied]
    simp only [whole, List.append_nil]
  · rw [lexemes, dif_neg more, if_pos (List.drop_eq_nil_of_le (Nat.le_of_not_lt more))]

end Positions

/-- What the pass makes of a piece that it reads. -/
def again : Piece → Option Piece
  | .openTag name attributes => keptTag name (attributes.map Attribute.escape)
  | piece => some piece

theorem resolvesText : ResolvesEscapes resolveTextEntity := by
  constructor <;> decide

theorem resolvesUrl : ResolvesEscapes resolveUrlEntity := by
  constructor <;> decide

/-- Text that was written is emitted as it was. -/
theorem emit_text (names : List Units) (before : Units) (rest : List Lexeme) :
    write ((emit names ((if escapeText before = [] then [] else
        [.text (escapeText before)]) ++ rest)).1.map Piece.escape) =
      escapeText before ++ write ((emit names rest).1.map Piece.escape) ∧
    (emit names ((if escapeText before = [] then [] else
      [.text (escapeText before)]) ++ rest)).2 = (emit names rest).2 := by
  by_cases empty : escapeText before = []
  · simp [empty]
  · have decoded : decodeTextEntities (escapeText before) = before := resolvesText.text before
    simp [empty, emit, Lexeme.emit, decoded, write, Piece.escape, Piece.write]

theorem emitTag_closes {name : Units} {names : List Units} {stop : Nat}
    (allowed : name ∈ ALLOWED_TAGS) :
    emitTag (name :: names) ⟨name, true, [], stop⟩ = ([.closeTag name], names) := by
  have kept : ∀ name ∈ ALLOWED_TAGS, ¬ (name ∈ DROPPED_VOID_TAGS ∨ name ∈ DROPPED_WITH_CONTENT) := by
    decide
  simp [emitTag, kept name allowed, closed, left]

theorem emitTag_opens {name : Units} {names : List Units} {attributes : List Attribute} {stop : Nat}
    (allowed : name ∈ ALLOWED_TAGS) :
    emitTag names ⟨name, false, attributes, stop⟩ = ((keptTag name attributes).toList,
      if name ∈ VOID_TAGS then names else name :: names) := by
  have kept : ∀ name ∈ ALLOWED_TAGS, ¬ (name ∈ DROPPED_VOID_TAGS ∨ name ∈ DROPPED_WITH_CONTENT) := by
    decide
  have image : units "img" ∈ VOID_TAGS := by decide
  simp only [emitTag, if_neg (kept name allowed), Bool.false_eq_true, if_false,
    if_neg (not_not.mpr allowed)]
  cases found : keptTag name attributes with
  | none =>
    have single : name ∈ VOID_TAGS := by
      unfold keptTag at found
      split at found
      · rename_i dropped
        exact dropped.1 ▸ image
      · cases found
    rw [if_pos single]
    rfl
  | some piece => rfl

theorem emit_cons (names : List Units) (lexeme : Lexeme) (rest : List Lexeme) :
    emit names (lexeme :: rest) = ((lexeme.emit names).1 ++ (emit (lexeme.emit names).2 rest).1,
      (emit (lexeme.emit names).2 rest).2) := rfl

/-- The pieces behind some text are read one by one, and the stack follows them. -/
theorem emit_lexemes {source before : Units} {position : Nat} {pieces : List Piece}
    {names outer : List Units} (allowed : ∀ piece ∈ pieces, Allowed piece)
    (nested : unwind names (pieces.filterMap (Piece.bracket VOID_TAGS)) = some outer)
    (h : source.drop position = escapeText before ++ write (pieces.map Piece.escape)) :
    write ((emit names (lexemes source position)).1.map Piece.escape) =
        escapeText before ++ write ((pieces.filterMap again).map Piece.escape) ∧
      (emit names (lexemes source position)).2 = outer := by
  have clean := (escapeText_clean before).1
  induction pieces generalizing names position before with
  | nil =>
    obtain rfl := Option.some.inj nested
    rw [show escapeText before ++ write ([].map Piece.escape) = escapeText before by
      simp [write]] at h
    have written := emit_text names before []
    rw [List.append_nil] at written
    rw [lexemes_text clean h]
    exact written
  | cons piece rest ih =>
    obtain ⟨first, others⟩ := List.forall_mem_cons.mp allowed
    cases piece with
    | text content =>
      have joined : source.drop position = escapeText (before ++ content) ++
          write (rest.map Piece.escape) := by
        simpa [write, Piece.escape, Piece.write] using h
      have further := ih others nested joined (escapeText_clean _).1
      simpa [again, write, Piece.escape, Piece.write] using further
    | openTag name attributes =>
      have written : source.drop position = escapeText before ++ (tagText false name
          (attributes.map Attribute.escape) ++ write (rest.map Piece.escape)) := by
        simpa [write, Piece.escape, Piece.write, tagText] using h
      obtain ⟨stop, next, behind, read⟩ := lexemes_written clean written first.1 first.named.legible.2
      have inside : unwind (if name ∈ VOID_TAGS then names else name :: names)
          (rest.filterMap (Piece.bracket VOID_TAGS)) = some outer := by
        by_cases single : name ∈ VOID_TAGS
        · simpa [Piece.bracket, single] using nested
        · simpa [Piece.bracket, single, unwind] using nested
      have start : source.drop next = escapeText [] ++ write (rest.map Piece.escape) := behind
      obtain ⟨output, stack⟩ := ih others inside start (escapeText_clean _).1
      have prior := emit_text names before
        (.tag ⟨name, false, attributes.map Attribute.escape, stop⟩ :: lexemes source next)
      rw [← read, emit_cons, Lexeme.emit, emitTag_opens first.1] at prior
      refine ⟨prior.1.trans (congrArg _ ?_), prior.2.trans stack⟩
      rw [List.map_append, write_append, output, List.filterMap_cons, again]
      cases keptTag name (attributes.map Attribute.escape) <;> simp [write, escapeText_eq]
    | closeTag name =>
      have written : source.drop position = escapeText before ++ (tagText true name [] ++
          write (rest.map Piece.escape)) := by
        simpa [write, Piece.escape, Piece.write, tagText] using h
      obtain ⟨stop, next, behind, read⟩ := lexemes_written clean written first.1 (by simp)
      obtain ⟨inner, rfl, inside⟩ : ∃ inner, names = name :: inner ∧
          unwind inner (rest.filterMap (Piece.bracket VOID_TAGS)) = some outer := by
        simp only [List.filterMap_cons, Piece.bracket, if_neg first.2] at nested
        exact unwind_closes_cons nested
      have start : source.drop next = escapeText [] ++ write (rest.map Piece.escape) := behind
      obtain ⟨output, stack⟩ := ih others inside start (escapeText_clean _).1
      have prior := emit_text (name :: inner) before
        (.tag ⟨name, true, [], stop⟩ :: lexemes source next)
      rw [← read, emit_cons, Lexeme.emit, emitTag_closes first.1] at prior
      refine ⟨prior.1.trans (congrArg _ ?_), prior.2.trans stack⟩
      rw [List.map_append, write_append, output]
      simp [write, escapeText_eq, again]

/-- On what was written under the allowlist, the pass decides about one piece at a time. -/
theorem sanitizeHtml_written {pieces : List Piece} (h : Emitted pieces []) :
    sanitizeHtml (write (pieces.map Piece.escape)) =
      write ((pieces.filterMap again).map Piece.escape) := by
  have whole : (write (pieces.map Piece.escape)).drop 0 =
      escapeText [] ++ write (pieces.map Piece.escape) := rfl
  obtain ⟨output, stack⟩ := emit_lexemes h.allowed h.nested whole
  rw [sanitizeHtml_eq, SanitizeHtml.pieces]
  simp only [List.map_append, write_append, output, stack]
  simp [write, escapeText_eq]

end SanitizeHtml
