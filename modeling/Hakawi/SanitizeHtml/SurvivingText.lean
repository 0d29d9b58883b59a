import Hakawi.SanitizeHtml.Segments

/-!
# The text that survives

All text of an input is in its output, in order, and no other text is. Each run is
resolved by itself, as a browser resolves a text node, so a reference that markup
interrupts stays as it is written.
-/

namespace SanitizeHtml

open Html

/-- The characters of a document, references as they are written. -/
def textOf (tokens : List HtmlToken) : Units :=
  tokens.filterMap fun
    | .character u => some u
    | _ => none

section Boundaries

theorem ENTITY_PATTERN_stops : ENTITY_PATTERN.Stops (unit '<') := by
  constructor <;> decide

/-- No reference goes past the `<` that a run ends with. -/
def Bounded (run : Units) : Prop := run = [] ∨ ∃ front, run = front ++ [unit '<']

theorem decodeTextEntities_stray (before rest : Units) :
    decodeTextEntities (before ++ unit '<' :: rest) =
      decodeTextEntities before ++ unit '<' :: decodeTextEntities rest :=
  replaceReferences_stop ENTITY_PATTERN_stops (Nat.zero_le _) rest

theorem Bounded.decode {run : Units} (h : Bounded run) (rest : Units) :
    decodeTextEntities (run ++ rest) = decodeTextEntities run ++ decodeTextEntities rest := by
  rcases h with rfl | ⟨front, rfl⟩
  · rfl
  · rw [List.append_assoc, List.singleton_append, decodeTextEntities_stray,
      decodeTextEntities_stray, List.append_assoc]
    rfl

end Boundaries

section Contents

def Segment.decoded (segment : Segment) : Units := decodeTextEntities segment.content

/-- The text of what the pass reads, resolved. -/
def Lexeme.content : Lexeme → Units
  | .text written => decodeTextEntities written
  | .stray => units "<"
  | .tag _ => []

def pieceText : Piece → Units
  | .text content => content
  | _ => []

theorem textRun_decoded (run : Units) :
    (textRun run).flatMap Segment.decoded = decodeTextEntities run := by
  unfold textRun
  split
  · subst run
    rfl
  · simp [Segment.decoded, Segment.content]

/-- Markup ends the run in front of it, and the next one starts behind it. -/
theorem segmentsFrom_markup {source tail : Units} {position next : Nat} (run : Units)
    (here : source.drop position = unit '<' :: tail)
    (found : (markup (unit '<' :: tail)).map (position + ·.2) = some next) :
    (segmentsFrom 0 run (unit '<' :: tail)).flatMap Segment.decoded =
      decodeTextEntities run ++
        (segmentsFrom 0 [] (source.drop next)).flatMap Segment.decoded := by
  obtain ⟨⟨kind, length⟩, read, rfl⟩ := Option.map_eq_some_iff.mp found
  obtain ⟨length, rfl⟩ := Nat.exists_eq_succ_of_ne_zero (markup_pos read).ne'
  have behind : source.drop (position + (length + 1)) = tail.drop length := by
    rw [← List.drop_drop, here, List.drop_succ_cons]
  have silent : (Segment.markup kind ((unit '<' :: tail).take (length + 1))).decoded = [] := rfl
  rw [segmentsFrom, read]
  simp only [Nat.add_sub_cancel, List.flatMap_append, List.flatMap_cons, textRun_decoded, silent,
    List.nil_append, Nat.succ_eq_add_one, behind]
  rw [segmentsFrom_skip]

theorem indexOf_some {source : Units} {u : UInt16} {cursor k : Nat}
    (found : indexOf source [u] cursor = some k) :
    ∃ before tail, source.drop cursor = before ++ u :: tail ∧ u ∉ before ∧
      cursor + before.length = k := by
  obtain ⟨j, first, rfl⟩ := Option.map_eq_some_iff.mp found
  obtain ⟨before, tail, rest, plain, rfl⟩ := search_unit_some first
  exact ⟨before, tail, rest, plain, rfl⟩

theorem textBefore_content {source before rest : Units} {cursor : Nat}
    (h : source.drop cursor = before ++ rest) :
    (if cursor + before.length > cursor then
      [Lexeme.text (slice source cursor (cursor + before.length))] else []).flatMap Lexeme.content =
        decodeTextEntities before := by
  rw [slice_of_drop h]
  cases before with
  | nil => simp [decodeTextEntities, replaceReferences]
  | cons u before => simp [Lexeme.content]

/-- The pass reads the text of the segments: a run at a time, cut at each stray `<`. -/
theorem segmentsFrom_decoded (source run : Units) (cursor : Nat) (bounded : Bounded run) :
    (segmentsFrom 0 run (source.drop cursor)).flatMap Segment.decoded =
      decodeTextEntities run ++ (lexemes source cursor).flatMap Lexeme.content := by
  fun_induction lexemes source cursor generalizing run with
  | case1 cursor more ih =>
    rw [List.flatMap_append, nextLexemes]
    rw [nextLexemes] at ih
    cases found : indexOf source (units "<") cursor with
    | none =>
      have plain : unit '<' ∉ source.drop cursor :=
        search_unit_eq_none.mp (Option.map_eq_none_iff.mp found)
      have whole : slice source cursor source.length = source.drop cursor :=
        List.take_of_length_le (by rw [List.length_drop])
      have last := segmentsFrom_plain plain run []
      rw [List.append_nil] at last
      rw [last, lexemes, dif_neg (lt_irrefl _)]
      simp [segmentsFrom, textRun_decoded, bounded.decode, Lexeme.content, whole]
    | some tagStart =>
      obtain ⟨before, tail, rest, plain, rfl⟩ := indexOf_some (u := unit '<') found
      have here : source.drop (cursor + before.length) = unit '<' :: tail := drop_behind rest
      have prior := textBefore_content rest
      have ends := markup_eq here
      rw [rest, segmentsFrom_plain plain]
      simp only [found] at ih ⊢
      cases declared : skipDeclaration source (cursor + before.length) with
      | some next =>
        rw [declared] at ends
        simp only [declared] at ih ⊢
        rw [segmentsFrom_markup _ here ends, bounded.decode, prior, ih [] (Or.inl rfl)]
        simp [decodeTextEntities, replaceReferences]
      | none =>
        rw [declared] at ends
        simp only [declared] at ih ⊢
        cases read : Uncached.readTag source (cursor + before.length) with
        | none =>
          rw [read] at ends
          simp only [read] at ih ⊢
          have text : markup (unit '<' :: tail) = none := Option.map_eq_none_iff.mp ends
          have behind : source.drop (cursor + before.length + 1) = tail := by
            rw [← List.drop_drop, here, List.drop_succ_cons, List.drop_zero]
          have further := ih (run ++ before ++ [unit '<']) (Or.inr ⟨_, rfl⟩)
          have stray : decodeTextEntities (run ++ before ++ [unit '<']) =
              decodeTextEntities run ++ decodeTextEntities before ++ units "<" := by
            rw [decodeTextEntities_stray, bounded.decode]
            rfl
          rw [behind, stray] at further
          rw [segmentsFrom, text, List.flatMap_append, prior]
          simpa [Lexeme.content] using further
        | some tag =>
          rw [read] at ends
          simp only [read] at ih ⊢
          rw [segmentsFrom_markup _ here ends, bounded.decode, List.flatMap_append, prior,
            ih [] (Or.inl rfl)]
          simp [Lexeme.content, decodeTextEntities, replaceReferences]
  | case2 cursor beyond =>
    rw [List.drop_eq_nil_of_le (Nat.le_of_not_lt beyond), segmentsFrom, textRun_decoded,
      List.flatMap_nil, List.append_nil]

theorem emitTag_text (names : List Units) (tag : ParsedTag) :
    (emitTag names tag).1.flatMap pieceText = [] := by
  unfold emitTag
  split
  · rfl
  · split
    · split
      · simp [List.flatMap_map, pieceText]
      · rfl
    · split
      · rfl
      · cases kept : keptTag tag.name tag.attributes with
        | none => rfl
        | some piece =>
          obtain rfl := keptTag_some kept
          rfl

theorem emit_text_content (names : List Units) (read : List Lexeme) :
    (emit names read).1.flatMap pieceText = read.flatMap Lexeme.content := by
  induction read generalizing names with
  | nil => rfl
  | cons lexeme rest ih =>
    rw [emit_cons, List.flatMap_append, ih, List.flatMap_cons]
    cases lexeme with
    | text written => simp [Lexeme.emit, Lexeme.content, pieceText]
    | stray => simp [Lexeme.emit, Lexeme.content, pieceText]
    | tag parsed => rw [Lexeme.emit, emitTag_text, Lexeme.content]

theorem pieces_text (input : Units) :
    (pieces input).flatMap pieceText = (lexemes input 0).flatMap Lexeme.content := by
  rw [pieces, List.flatMap_append, emit_text_content, List.flatMap_map]
  simp [pieceText]

theorem textOf_pieces (written : List Piece) :
    textOf ((written.map Piece.escape).flatMap Piece.tokens) =
      escapeText (written.flatMap pieceText) := by
  induction written with
  | nil => rfl
  | cons piece rest ih =>
    rw [List.map_cons, List.flatMap_cons, List.flatMap_cons, escapeText_append, ← ih, textOf,
      List.filterMap_append]
    congr 1
    cases piece with
    | text content => simp [Piece.escape, Piece.tokens, pieceText]
    | openTag name attributes => rfl
    | closeTag name => rfl

end Contents

/-- The text of the output is the text of the input, resolved one run at a time. -/
theorem sanitizeHtml_text (input : Units) :
    (segments input).flatMap Segment.written = input ∧
      (tokenize (sanitizeHtml input)).map (decodeTextEntities ∘ textOf) =
        some ((segments input).flatMap fun segment => decodeTextEntities segment.content) := by
  refine ⟨segmentsFrom_written 0 [] input, ?_⟩
  have read := segmentsFrom_decoded input [] 0 (Or.inl rfl)
  rw [tokenize_sanitizeHtml, Option.map_some, Function.comp_apply, textOf_pieces, pieces_text]
  exact congrArg some ((resolvesText.text _).trans read.symm)

/-- A reference that an element interrupts is not put together again. -/
theorem sanitizeHtml_text_interrupted :
    (tokenize (sanitizeHtml (units "&am<b></b>p;"))).map (decodeTextEntities ∘ textOf) ≠
      some (decodeTextEntities ((segments (units "&am<b></b>p;")).flatMap Segment.content)) := by
  decide +kernel

end SanitizeHtml
