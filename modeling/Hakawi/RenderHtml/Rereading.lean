import Hakawi.RenderHtml.Shape

/-!
# The render layer over written content

A tag that was written is found where it stands and read as it was written, so on
such an input the pass decides about one piece at a time. What it has decided to
keep it keeps again.
-/

namespace RenderHtml

open Html

/-- What the pass reads back as it was meant. -/
def Readable : Piece → Prop
  | .text _ => True
  | .openTag name attributes => name ∈ ALLOWED_TAGS ∧ ∀ attr ∈ attributes, isName attr.name
  | .closeTag name => name ∈ ALLOWED_TAGS ∧ name ∉ VOID_TAGS

theorem Readable.legible {name : Units} {attributes : List Attribute}
    (h : Readable (.openTag name attributes)) : ∀ attr ∈ attributes.map Attribute.escape,
      isName attr.name ∧ DOUBLE_QUOTE ∉ attr.value := by
  intro written member
  obtain ⟨attr, present, rfl⟩ := List.mem_map.mp member
  exact ⟨h.2 attr present, (escapeAttributeValue_clean attr.value).2.2⟩

theorem ATTRIBUTE_PATTERN_knows : ATTRIBUTE_PATTERN.Knows := by
  have part : ∀ u, isNameUnit u → isAttributeNameUnit u := by
    intro u inside
    have apart : ∀ v, isNameUnit v = false → u ≠ v := by
      rintro v other rfl
      rw [inside] at other
      cases other
    have solid : isSpace u = false := by
      simp only [isNameUnit, Bool.or_eq_true, Bool.and_eq_true, decide_eq_true_eq] at inside
      rcases inside with lower | digit
      · exact isSpace_of_visible (UInt16.le_trans (show (33 : UInt16) ≤ 97 by decide) lower.1)
          (UInt16.le_trans lower.2 (show (122 : UInt16) ≤ 126 by decide))
      · exact isSpace_of_isDigit digit
    simp [isAttributeNameUnit, solid, units, apart DOUBLE_QUOTE (by decide),
      apart SINGLE_QUOTE (by decide), apart (unit '/') (by decide), apart (unit '=') (by decide),
      apart (unit '>') (by decide)]
  constructor
  · decide
  · intro u lower
    exact part u (by simp [isNameUnit, lower])
  · exact part
  · decide

section Positions
variable {input : Units}

theorem openName_written {name rest : Units} (named : isName name)
    (ends : ∀ u ∈ rest.head?, u = unit ' ' ∨ u = unit '>') : openName (name ++ rest) = name := by
  cases name with
  | nil => cases named
  | cons u tail =>
    obtain ⟨first, others⟩ := Bool.and_eq_true_iff.mp named
    have run : (tail ++ rest).takeWhile (fun v => isAlphanumeric v || v = unit '-') = tail := by
      refine takeWhile_append_stop ?_ fun v hv => ?_
      · refine List.all_eq_true.mpr fun v hv => ?_
        have inside := List.all_eq_true.mp others v hv
        simp only [isNameUnit, Bool.or_eq_true] at inside
        rcases inside with lower | digit
        · simp [isAlphanumeric, isLetter, lower]
        · simp [isAlphanumeric, digit]
      · rcases ends v hv with rfl | rfl <;> decide
    have letter : isLetter u := by simp [isLetter, first]
    rw [List.cons_append, openName, if_pos letter, run]
    exact AttributePattern.lowerCase_name (isNameUnit_of_isName named)

/-- A tag that was written ends where it was meant to. -/
theorem findTagEnd_written {position : Nat} {closing : Bool} {name : Units}
    {attributes : List Attribute} {rest : Units}
    (h : input.drop position = tagText closing name attributes ++ rest) (named : isName name)
    (plain : ∀ attr ∈ attributes, isName attr.name ∧ DOUBLE_QUOTE ∉ attr.value) :
    findTagEnd input position (lastIndexOf (unit '>') input) =
      some (position + 1 + (tagInner closing name attributes).length + 1) := by
  have start : input.drop position = [unit '<'] ++
      (tagInner closing name attributes ++ unit '>' :: rest) := by
    simp [h, tagText_eq]
  have inner : input.drop (position + 1) =
      tagInner closing name attributes ++ unit '>' :: rest := drop_behind start
  have ends : input[position + 1 + (tagInner closing name attributes).length]? = some (unit '>') := by
    rw [← Nat.add_zero (_ + List.length _), getElem?_of_drop (drop_behind inner) 0]
    rfl
  have before : ¬ (position : Int) ≥ lastIndexOf (unit '>') input := by
    intro beyond
    refine lastIndexOf_lt (k := position + 1 + (tagInner closing name attributes).length) ?_ ends
    omega
  rw [findTagEnd, if_neg before, inner, tagEnd_tagInner named plain, Option.map_some]

/-- Behind the `<` of a written tag comes its slash or its name. -/
theorem second_written {position : Nat} {closing : Bool} {name : Units}
    {attributes : List Attribute} {rest : Units}
    (h : input.drop position = tagText closing name attributes ++ rest) (named : isName name) :
    ∃ u, input[position + 1]? = some u ∧ (closing = true ∧ u = unit '/' ∨
      closing = false ∧ isLetter u ∧ isNameUnit u) := by
  rw [getElem?_of_drop h 1]
  cases closing with
  | true => exact ⟨unit '/', rfl, Or.inl ⟨rfl, rfl⟩⟩
  | false =>
    cases name with
    | nil => cases named
    | cons u tail =>
      obtain ⟨first, -⟩ := Bool.and_eq_true_iff.mp named
      refine ⟨u, rfl, Or.inr ⟨rfl, by simp [isLetter, first], ?_⟩⟩
      exact isNameUnit_of_isName named u List.mem_cons_self

theorem markup_written (scan : Scan) {closing : Bool} {name : Units}
    {attributes : List Attribute} {rest : Units}
    (h : input.drop scan.i = tagText closing name attributes ++ rest) (named : isName name)
    (plain : ∀ attr ∈ attributes, isName attr.name ∧ DOUBLE_QUOTE ∉ attr.value) :
    let inner := tagInner closing name attributes
    let behind : Scan := { scan.flushText with i := scan.i + 1 + inner.length + 1 }
    scan.markup input =
      if closing then behind.closeTag (closeName inner) else behind.openTag inner := by
  obtain ⟨u, second, kind⟩ := second_written h named
  have other : u ≠ unit '!' := by
    rcases kind with ⟨-, rfl⟩ | ⟨-, -, part⟩
    · decide
    · exact isNameUnit_ne part (by decide)
  have declares : ∀ needle : Units,
      startsWith input (unit '<' :: unit '!' :: needle) scan.i = false := by
    intro needle
    rw [startsWith, decide_eq_false_iff_not]
    rintro ⟨others, same⟩
    have mark : input[scan.i + 1]? = some (unit '!') := by
      rw [getElem?_of_drop same.symm 1]
      rfl
    rw [second] at mark
    exact other (Option.some.inj mark)
  have comment : startsWith input (units "<!--") scan.i = false := declares (units "--")
  have cdata : startsWith input (units "<![CDATA[") scan.i = false := declares (units "[CDATA[")
  have start : input.drop scan.i = [unit '<'] ++
      (tagInner closing name attributes ++ unit '>' :: rest) := by
    simp [h, tagText_eq]
  have inner : input.drop (scan.i + 1) =
      tagInner closing name attributes ++ unit '>' :: rest := drop_behind start
  have between : slice input (scan.i + 1)
      (scan.i + 1 + (tagInner closing name attributes).length + 1 - 1) =
        tagInner closing name attributes := slice_of_drop inner
  simp only [Scan.markup, comment, cdata, second, findTagEnd_written h named plain, between]
  rcases kind with ⟨rfl, rfl⟩ | ⟨rfl, letter, part⟩
  · rfl
  · have slashless : u ≠ unit '/' := isNameUnit_ne part (by decide)
    simp [other, letter, slashless]

/-- Text and a tag behind it, as they were written. -/
theorem step_written (out : Units) (stack : List Units) {position : Nat} {before : Units}
    {closing : Bool} {name : Units} {attributes : List Attribute} {rest : Units}
    (h : input.drop position = escapeText before ++ (tagText closing name attributes ++ rest))
    (named : isName name)
    (plain : ∀ attr ∈ attributes, isName attr.name ∧ DOUBLE_QUOTE ∉ attr.value) :
    ∃ next, input.drop next = rest ∧ Scan.step input ⟨out, stack, none, [], position⟩ =
      if closing then Scan.closeTag ⟨out ++ escapeText before, stack, none, [], next⟩
        (closeName (tagInner closing name attributes))
      else Scan.openTag ⟨out ++ escapeText before, stack, none, [], next⟩
        (tagInner closing name attributes) := by
  have found : indexOf input (units "<") position = some (position + (escapeText before).length) := by
    have split : input.drop position = escapeText before ++
        unit '<' :: (tagInner closing name attributes ++ [unit '>'] ++ rest) := by
      simp [h, tagText_eq]
    exact indexOf_unit split (escapeText_clean before).1
  have start := drop_behind h
  have stopped : (if position + (escapeText before).length > position then
      (⟨out, stack, none, [] ++ slice input position (position + (escapeText before).length),
        position + (escapeText before).length⟩ : Scan)
      else ⟨out, stack, none, [], position⟩) =
        ⟨out, stack, none, escapeText before, position + (escapeText before).length⟩ := by
    rw [slice_of_drop h]
    by_cases empty : escapeText before = []
    · simp [empty]
    · have positive := List.length_pos_iff.mpr empty
      rw [if_pos (by omega), List.nil_append]
  have flushed : (⟨out, stack, none, escapeText before,
      position + (escapeText before).length⟩ : Scan).flushText =
        ⟨out ++ escapeText before, stack, none, [], position + (escapeText before).length⟩ := by
    have decoded : decodeEntities (escapeText before) = before := resolvesEscapes.text before
    rw [Scan.flushText]
    by_cases empty : escapeText before = []
    · simp [empty]
    · simp [empty, decoded]
  have through := drop_behind start
  have read := markup_written ⟨out, stack, none, escapeText before,
    position + (escapeText before).length⟩ start named plain
  rw [flushed] at read
  refine ⟨position + (escapeText before).length + 1 + (tagInner closing name attributes).length + 1,
    ?_, ?_⟩
  · rw [← through, tagText_eq]
    simp only [List.length_append, List.length_singleton]
    congr 1
    omega
  · simp only [Scan.step, found, stopped]
    exact read

end Positions

/-- What the pass makes of a piece that it reads. -/
def again : Piece → Option Piece
  | .openTag name attributes =>
    (keptAttributes name (attributes.map Attribute.escape)).map (.openTag name)
  | piece => some piece
theorem openTag_written (scan : Scan) {name : Units} {attributes : List Attribute}
    (allowed : name ∈ ALLOWED_TAGS)
    (plain : ∀ attr ∈ attributes, isName attr.name ∧ DOUBLE_QUOTE ∉ attr.value) :
    scan.openTag (tagInner false name attributes) =
      match keptAttributes name attributes with
      | none => scan
      | some kept =>
        { scan with
          out := scan.out ++ (Piece.openTag name kept).escape.write
          stack := if name ∈ VOID_TAGS then scan.stack else name :: scan.stack } := by
  have retained : ∀ name ∈ ALLOWED_TAGS, name ∉ CONTENT_DROPPED_TAGS := by decide
  have named := isName_of_allowed allowed
  have nonempty : name ≠ [] := by
    rintro rfl
    cases named
  have inner : tagInner false name attributes = name ++ attributes.flatMap Attribute.write := by
    simp [tagInner]
  have read : openName (name ++ attributes.flatMap Attribute.write) = name := by
    refine openName_written named fun u hu => ?_
    cases attributes with
    | nil => cases hu
    | cons attr others => exact Or.inl (Option.some.inj hu).symm
  simp only [Scan.openTag, inner, read, if_neg nonempty, if_neg (retained name allowed),
    if_neg (not_not.mpr allowed), List.drop_left, parseAttributes,
    ATTRIBUTE_PATTERN_knows.readAll plain, renderAttributes_eq]
  cases keptAttributes name attributes with
  | none => rfl
  | some kept => rfl

theorem closeTag_written (scan : Scan) {name : Units} {outer : List Units}
    (allowed : name ∈ ALLOWED_TAGS) (ends : name ∉ VOID_TAGS) (innermost : scan.stack = name :: outer) :
    scan.closeTag (closeName (tagInner true name [])) =
      { scan with
        out := scan.out ++ (Piece.closeTag name).escape.write
        stack := outer } := by
  have named := isName_of_allowed allowed
  have read : closeName (tagInner true name []) = name := by
    cases name with
    | nil => cases named
    | cons u tail =>
      have solid : isSpace u = false := by
        obtain ⟨lower, -⟩ := Bool.and_eq_true_iff.mp named
        simp only [Bool.and_eq_true, decide_eq_true_eq] at lower
        exact isSpace_of_visible (UInt16.le_trans (show (33 : UInt16) ≤ 97 by decide) lower.1)
          (UInt16.le_trans lower.2 (show (122 : UInt16) ≤ 126 by decide))
      have whole : openName (u :: tail ++ []) = u :: tail := openName_written named (by simp)
      rw [List.append_nil] at whole
      simp [closeName, tagInner, solid, whole]
  have nonempty : name ≠ [] := by
    rintro rfl
    cases named
  rw [read, Scan.closeTag, if_neg (by simp [nonempty, ends]), if_neg (by simp [innermost])]
  simp [innermost, closed, left, Scan.writeClosing, Piece.escape, Piece.write, units, unit]

/-- Only an image is dropped for what it lacks. -/
theorem keptAttributes_none {name : Units} {attrs : List Attribute}
    (h : keptAttributes name attrs = none) : name ∈ VOID_TAGS := by
  unfold keptAttributes at h
  split at h
  · dsimp only at h
    split at h <;> cases h
  · split at h
    · rename_i image
      rw [image]
      decide
    · cases h

theorem run_step {input : Units} {scan : Scan} (more : scan.i < input.length) :
    scan.run input = (scan.step input).run input := by
  rw [Scan.run, dif_pos more]

theorem run_text {input before out : Units} {stack : List Units} {position : Nat}
    (h : input.drop position = escapeText before) :
    ((⟨out, stack, none, [], position⟩ : Scan).run input).finish =
      out ++ escapeText before ++ stack.flatMap Scan.writeClosing := by
  have decoded : decodeEntities (escapeText before) = before := resolvesEscapes.text before
  by_cases more : position < input.length
  · have none_ : indexOf input (units "<") position = none :=
      indexOf_unit_none (h ▸ (escapeText_clean before).1)
    have stepped : (⟨out, stack, none, [], position⟩ : Scan).step input =
        ⟨out, stack, none, escapeText before, input.length⟩ := by
      simp [Scan.step, none_, h]
    rw [run_step more, stepped, Scan.run, dif_neg (lt_irrefl _), Scan.finish, Scan.flushText]
    by_cases empty : escapeText before = []
    · simp [empty]
    · simp [empty, decoded]
  · have empty : escapeText before = [] := by
      rw [← h, List.drop_eq_nil_of_le (Nat.le_of_not_lt more)]
    rw [Scan.run, dif_neg more, empty]
    simp [Scan.finish, Scan.flushText]

/-- The pieces behind some text are read one by one, and the stack follows them. -/
theorem run_written {input before out : Units} {position : Nat} {pieces : List Piece}
    {stack outer : List Units} (readable : ∀ piece ∈ pieces, Readable piece)
    (nested : unwind stack (pieces.filterMap (Piece.bracket VOID_TAGS)) = some outer)
    (h : input.drop position = escapeText before ++ write (pieces.map Piece.escape)) :
    ((⟨out, stack, none, [], position⟩ : Scan).run input).finish =
      out ++ escapeText before ++ write ((pieces.filterMap again).map Piece.escape) ++
        outer.flatMap Scan.writeClosing := by
  induction pieces generalizing out stack position before with
  | nil =>
    obtain rfl := Option.some.inj nested
    have ends : input.drop position = escapeText before := by simpa [write] using h
    rw [run_text ends]
    simp [write]
  | cons piece rest ih =>
    obtain ⟨first, others⟩ := List.forall_mem_cons.mp readable
    cases piece with
    | text content =>
      have joined : input.drop position = escapeText (before ++ content) ++
          write (rest.map Piece.escape) := by
        simpa [write, Piece.escape, Piece.write] using h
      rw [ih others nested joined]
      simp [again, write, Piece.escape, Piece.write]
    | openTag name attributes =>
      have written : input.drop position = escapeText before ++ (tagText false name
          (attributes.map Attribute.escape) ++ write (rest.map Piece.escape)) := by
        simpa [write, Piece.escape, Piece.write, tagText] using h
      have more : position < input.length := by
        by_contra beyond
        rw [List.drop_eq_nil_of_le (Nat.le_of_not_lt beyond)] at written
        simp [tagText] at written
      obtain ⟨next, behind, stepped⟩ := step_written out stack written
        (isName_of_allowed first.1) first.legible
      rw [if_neg Bool.false_ne_true, openTag_written _ first.1 first.legible] at stepped
      have start : input.drop next = escapeText [] ++ write (rest.map Piece.escape) := behind
      rw [run_step more, stepped]
      cases kept : keptAttributes name (attributes.map Attribute.escape) with
      | none =>
        have inside : unwind stack (rest.filterMap (Piece.bracket VOID_TAGS)) = some outer := by
          simpa [Piece.bracket, keptAttributes_none kept] using nested
        rw [ih others inside start]
        simp [again, kept, escapeText_eq]
      | some keeps =>
        have inside : unwind (if name ∈ VOID_TAGS then stack else name :: stack)
            (rest.filterMap (Piece.bracket VOID_TAGS)) = some outer := by
          by_cases single : name ∈ VOID_TAGS
          · simpa [Piece.bracket, single] using nested
          · simpa [Piece.bracket, single, unwind] using nested
        rw [ih others inside start]
        simp [again, kept, write, escapeText_eq]
    | closeTag name =>
      have written : input.drop position = escapeText before ++ (tagText true name [] ++
          write (rest.map Piece.escape)) := by
        simpa [write, Piece.escape, Piece.write, tagText] using h
      have more : position < input.length := by
        by_contra beyond
        rw [List.drop_eq_nil_of_le (Nat.le_of_not_lt beyond)] at written
        simp [tagText] at written
      obtain ⟨inner, rfl, inside⟩ : ∃ inner, stack = name :: inner ∧
          unwind inner (rest.filterMap (Piece.bracket VOID_TAGS)) = some outer := by
        simp only [List.filterMap_cons, Piece.bracket, if_neg first.2] at nested
        exact unwind_closes_cons nested
      obtain ⟨next, behind, stepped⟩ := step_written out (name :: inner) written
        (isName_of_allowed first.1) (by simp)
      rw [if_pos rfl, closeTag_written _ first.1 first.2 rfl] at stepped
      have start : input.drop next = escapeText [] ++ write (rest.map Piece.escape) := behind
      rw [run_step more, stepped, ih others inside start]
      simp [again, write, escapeText_eq]

/-- On what was written under an allowlist, the pass decides about one piece at a time. -/
theorem sanitizeHtml_written {pieces : List Piece} (readable : ∀ piece ∈ pieces, Readable piece)
    (nested : unwind [] (pieces.filterMap (Piece.bracket VOID_TAGS)) = some []) :
    sanitizeHtml (write (pieces.map Piece.escape)) =
      write ((pieces.filterMap again).map Piece.escape) := by
  have whole : (write (pieces.map Piece.escape)).drop 0 =
      escapeText [] ++ write (pieces.map Piece.escape) := rfl
  have run : (Scan.opening.run (write (pieces.map Piece.escape))).finish = _ :=
    run_written readable nested whole
  rw [sanitizeHtml, run]
  simp [escapeText_eq]

theorem Allowed.readable {piece : Piece} (h : Allowed piece) : Readable piece := by
  cases piece with
  | text content => trivial
  | openTag name attributes => exact ⟨h.1, h.named.2⟩
  | closeTag name => exact h

theorem Allowed.again {piece : Piece} (h : Allowed piece) : again piece = some piece := by
  cases piece with
  | text content => rfl
  | openTag name attributes =>
    obtain ⟨-, attrs, kept⟩ := h
    rw [RenderHtml.again, keptAttributes_again kept, Option.map_some]
  | closeTag name => rfl

/-- The output is escaped text and balanced allowlisted tags, it is read as such, and a
second pass returns it. -/
theorem sanitizeHtml_clean_stable (input : Units) :
    (∃ pieces : List Piece, (∀ piece ∈ pieces, Clean piece.escape) ∧
      sanitizeHtml input = write (pieces.map Piece.escape) ∧
      let tokens := (pieces.map Piece.escape).flatMap Piece.tokens
      tokenize (sanitizeHtml input) = some tokens ∧
        Balanced (tokens.filterMap (HtmlToken.bracket VOID_TAGS)) ∧
        ∀ name ∈ VOID_TAGS, .endTag name ∉ tokens) ∧
    sanitizeHtml (sanitizeHtml input) = sanitizeHtml input := by
  obtain ⟨pieces, output, emitted⟩ := sanitizeHtml_emitted input
  rw [output]
  constructor
  · refine ⟨pieces, fun piece member => ?_, rfl, emitted.tokenize, emitted.balanced⟩
    exact (show Allowed piece from emitted.allowed piece member).clean
  · rw [sanitizeHtml_written (fun piece member => (emitted.allowed piece member).readable)
      emitted.nested]
    have stays : pieces.filterMap again = pieces :=
      (List.filterMap_congr fun piece member => (emitted.allowed piece member).again).trans
        List.filterMap_some
    rw [stays]

end RenderHtml
