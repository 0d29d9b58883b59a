import Hakawi.Html.Allowlist
import Hakawi.SanitizeHtml.Caching

/-!
# The pass as a reading and a writing

What the pass reads does not depend on what is open, so it is a list of lexemes.
What it writes for a lexeme is a list of pieces, and the stack is all it has to
know for that. The output is these pieces, escaped.
-/

namespace SanitizeHtml

open Html

inductive Lexeme where
  | text (written : Units)
  | stray
  | tag (parsed : ParsedTag)
  deriving DecidableEq

/-- Where the input goes on behind a tag. -/
def afterTag (source : Units) (tag : ParsedTag) : Nat :=
  if dropsContent tag then Uncached.skipDroppedElement source (tag.stop + 1) tag.name
  else tag.stop + 1

/-- What one step reads, and where it stops. -/
def nextLexemes (source : Units) (cursor : Nat) : List Lexeme × Nat :=
  match indexOf source (units "<") cursor with
  | none => ([.text (slice source cursor source.length)], source.length)
  | some tagStart =>
    let before := if tagStart > cursor then [.text (slice source cursor tagStart)] else []
    match skipDeclaration source tagStart with
    | some next => (before, next)
    | none =>
      match Uncached.readTag source tagStart with
      | none => (before ++ [.stray], tagStart + 1)
      | some tag => (before ++ [.tag tag], afterTag source tag)

theorem nextLexemes_step (source : Units) (scan : Uncached.Scan) :
    (nextLexemes source scan.cursor).2 = (scan.step source).cursor := by
  unfold nextLexemes Uncached.Scan.step
  cases indexOf source (units "<") scan.cursor with
  | none => rfl
  | some tagStart =>
    dsimp only
    cases skipDeclaration source tagStart with
    | some next => rfl
    | none =>
      cases Uncached.readTag source tagStart with
      | none => rfl
      | some tag =>
        simp only [afterTag]
        split <;> rfl

def lexemes (source : Units) (cursor : Nat) : List Lexeme :=
  if _more : cursor < source.length then
    (nextLexemes source cursor).1 ++ lexemes source (nextLexemes source cursor).2
  else []
termination_by source.length - cursor
decreasing_by
  have further := Uncached.Scan.step_cursor ⟨cursor, .empty⟩ _more
  rw [← nextLexemes_step] at further
  dsimp only at further
  omega

/-- What is written for a tag, and what is open behind it. -/
def emitTag (names : List Units) (tag : ParsedTag) : List Piece × List Units :=
  if tag.name ∈ DROPPED_VOID_TAGS ∨ tag.name ∈ DROPPED_WITH_CONTENT then ([], names)
  else if tag.closing then
    if tag.name ∈ names then ((closed names tag.name).map .closeTag, left names tag.name)
    else ([], names)
  else if tag.name ∉ ALLOWED_TAGS then ([], names)
  else
    match keptTag tag.name tag.attributes with
    | none => ([], names)
    | some piece => ([piece], if tag.name ∈ VOID_TAGS then names else tag.name :: names)

def Lexeme.emit (names : List Units) : Lexeme → List Piece × List Units
  | .text written => ([.text (decodeTextEntities written)], names)
  | .stray => ([.text (units "<")], names)
  | .tag parsed => emitTag names parsed

def emit : List Units → List Lexeme → List Piece × List Units
  | names, [] => ([], names)
  | names, lexeme :: rest =>
    let first := lexeme.emit names
    let others := emit first.2 rest
    (first.1 ++ others.1, others.2)

/-- Everything that is written for an input. -/
def pieces (input : Units) : List Piece :=
  let emitted := emit [] (lexemes input 0)
  emitted.1 ++ emitted.2.map .closeTag

theorem emit_append (names : List Units) (first second : List Lexeme) :
    emit names (first ++ second) =
      ((emit names first).1 ++ (emit (emit names first).2 second).1,
        (emit (emit names first).2 second).2) := by
  induction first generalizing names with
  | nil => rfl
  | cons lexeme first ih => simp [emit, ih, List.append_assoc]

section Stack
variable {name : Units} {names : List Units}

/-- The counts say how often each name is open. -/
def OpenElementStack.Counted (stack : OpenElementStack) : Prop :=
  ∀ name, stack.counts name = stack.names.count name

theorem flatten_writeClosing (names : List Units) :
    (names.map OpenElementStack.writeClosing).flatten =
      write ((names.map Piece.closeTag).map Piece.escape) := by
  induction names with
  | nil => rfl
  | cons name names ih => simp [ih, write, Piece.escape, Piece.write, OpenElementStack.writeClosing,
      units, unit]

theorem closeUntil_eq (counts : Units → Int) (member : name ∈ names) :
    OpenElementStack.closeUntil name counts names =
      ((closed names name).map OpenElementStack.writeClosing, some (left names name),
        fun other => counts other - (closed names name).count other) := by
  induction names generalizing counts with
  | nil => cases member
  | cons top names ih =>
    by_cases same : top = name
    · subst same
      simp only [OpenElementStack.closeUntil, closed, left, if_true]
      refine congrArg₂ Prod.mk (by simp) (congrArg₂ Prod.mk (by simp) ?_)
      funext other
      by_cases here : other = top
      · simp [here]
      · simp [here, Function.update_of_ne, Ne.symm here]
    · have further := ih (Function.update counts top (counts top - 1))
        ((List.mem_cons.mp member).resolve_left (Ne.symm same))
      simp only [OpenElementStack.closeUntil, if_neg same, further]
      refine congrArg₂ Prod.mk (by simp [closed, same]) (congrArg₂ Prod.mk (by simp [left, same]) ?_)
      funext other
      by_cases here : other = top
      · subst here
        simp [closed, same]
        omega
      · simp [closed, same, here, Function.update_of_ne, List.count_cons, Ne.symm here]

theorem OpenElementStack.Counted.openElement {stack : OpenElementStack} (h : stack.Counted)
    (name : Units) : (stack.openElement name).Counted := by
  intro other
  by_cases same : other = name
  · subst same
    simp [OpenElementStack.openElement, h other]
  · simp [OpenElementStack.openElement, Function.update_of_ne same, h other, Ne.symm same]

theorem OpenElementStack.Counted.closeElement {stack : OpenElementStack} (h : stack.Counted)
    (member : name ∈ stack.names) :
    ∃ counts, stack.closeElement name =
        (some ((closed stack.names name).map writeClosing), ⟨left stack.names name, counts⟩) ∧
      Counted ⟨left stack.names name, counts⟩ := by
  have open_ : stack.counts name ≠ 0 := by
    rw [h name]
    have positive := List.count_pos_iff.mpr member
    omega
  refine ⟨_, by rw [OpenElementStack.closeElement, if_neg open_, closeUntil_eq _ member], ?_⟩
  intro other
  have all := congrArg (List.count other) (closed_append_left member)
  rw [List.count_append] at all
  simp only [h other]
  omega

theorem OpenElementStack.Counted.closeElement_absent {stack : OpenElementStack} (h : stack.Counted)
    (absent : name ∉ stack.names) : stack.closeElement name = (none, stack) := by
  have zero : stack.counts name = 0 := by
    rw [h name, List.count_eq_zero_of_not_mem absent]
    rfl
  rw [OpenElementStack.closeElement, if_pos zero]

end Stack

/-- The output is that of these pieces, and the stack has these names. -/
structure Emission.Wrote (emission : Emission) (written : List Piece) (names : List Units) :
    Prop where
  output : emission.output.flatten = write (written.map Piece.escape)
  names : emission.openElements.names = names
  counted : emission.openElements.Counted

namespace Emission.Wrote
variable {emission : Emission} {written : List Piece} {names : List Units} {source : Units}

theorem empty : Emission.empty.Wrote [] [] := ⟨rfl, rfl, fun _ => rfl⟩

theorem push (h : emission.Wrote written names) {chunk : Units} {piece : Piece}
    (same : chunk = piece.escape.write) : (emission.push chunk).Wrote (written ++ [piece]) names := by
  refine ⟨?_, h.names, h.counted⟩
  simp [Emission.push, h.output, same, write]

theorem pushText (h : emission.Wrote written names) (source : Units) (start stop : Nat) :
    (emission.pushText source start stop).Wrote (written ++ (emit names
      (if stop > start then [.text (slice source start stop)] else [])).1) names := by
  unfold Emission.pushText
  split
  · rename_i more
    refine h.push ?_
    rw [renderText, if_neg (by omega)]
    rfl
  · simpa [emit] using h

theorem handleTag (h : emission.Wrote written names) (tag : ParsedTag) :
    (emission.handleTag tag).Wrote (written ++ (emitTag names tag).1) (emitTag names tag).2 := by
  have unchanged : emission.Wrote (written ++ []) names := by simpa using h
  obtain ⟨output, rfl, counted⟩ := h
  unfold Emission.handleTag emitTag
  by_cases void : tag.name ∈ DROPPED_VOID_TAGS
  · rw [if_pos void, if_pos (Or.inl void)]
    exact unchanged
  by_cases content : tag.name ∈ DROPPED_WITH_CONTENT
  · rw [if_neg void, if_pos content, if_pos (Or.inr content)]
    exact unchanged
  rw [if_neg void, if_neg content, if_neg (not_or.mpr ⟨void, content⟩)]
  by_cases closing : tag.closing
  · rw [if_pos closing, if_pos closing]
    by_cases member : tag.name ∈ emission.openElements.names
    · obtain ⟨counts, closes, remaining⟩ := counted.closeElement member
      rw [closes, if_pos member]
      refine ⟨?_, rfl, remaining⟩
      rw [List.flatten_append, output, flatten_writeClosing, List.map_append, write_append]
    · rw [counted.closeElement_absent member, if_neg member]
      exact unchanged
  rw [if_neg closing, if_neg closing]
  by_cases allowed : tag.name ∈ ALLOWED_TAGS
  · rw [if_neg (not_not.mpr allowed), if_neg (not_not.mpr allowed), renderOpenTag_eq]
    cases keptTag tag.name tag.attributes with
    | none => exact unchanged
    | some piece =>
      have pushed : (emission.push piece.escape.write).Wrote (written ++ [piece])
          emission.openElements.names := push ⟨output, rfl, counted⟩ rfl
      by_cases single : tag.name ∈ VOID_TAGS
      · simp only [Option.map_some, if_pos single]
        exact pushed
      · simp only [Option.map_some, if_neg single]
        exact ⟨pushed.output, rfl, counted.openElement tag.name⟩
  · rw [if_pos allowed, if_pos allowed]
    exact unchanged

/-- One step writes what it reads. -/
theorem step {scan : Uncached.Scan} (h : scan.emission.Wrote written names)
    (more : scan.cursor < source.length) :
    let read := (nextLexemes source scan.cursor).1
    (scan.step source).emission.Wrote (written ++ (emit names read).1) (emit names read).2 := by
  unfold nextLexemes Uncached.Scan.step
  cases found : indexOf source (units "<") scan.cursor with
  | none =>
    refine h.push ?_
    rw [renderText, if_neg (by omega)]
    rfl
  | some tagStart =>
    have before := h.pushText source scan.cursor tagStart
    have same : (emit names (if tagStart > scan.cursor then
        [.text (slice source scan.cursor tagStart)] else [])).2 = names := by
      split <;> rfl
    dsimp only
    cases skipDeclaration source tagStart with
    | some next =>
      rw [same]
      exact before
    | none =>
      cases Uncached.readTag source tagStart with
      | none =>
        have pushed := before.push (show units "&lt;" = (Piece.text (units "<")).escape.write from rfl)
        simpa [emit_append, emit, Lexeme.emit, same] using pushed
      | some tag =>
        have handled := before.handleTag tag
        dsimp only
        rw [emit_append, same, ← List.append_assoc]
        simp only [emit, Lexeme.emit, List.append_nil]
        split
        · rename_i drops
          simp only [dropsContent, Bool.and_eq_true, decide_eq_true_eq] at drops
          simpa [emitTag, drops.1.2] using before
        · exact handled

theorem run {scan : Uncached.Scan} (h : scan.emission.Wrote written names) :
    (scan.run source).emission.Wrote (written ++ (emit names (lexemes source scan.cursor)).1)
      (emit names (lexemes source scan.cursor)).2 := by
  fun_induction Uncached.Scan.run source scan generalizing written names with
  | case1 scan more ih =>
    have further := ih (h.step more)
    rw [lexemes, dif_pos more, emit_append, nextLexemes_step, ← List.append_assoc]
    exact further
  | case2 scan finished =>
    rw [lexemes, dif_neg finished]
    simpa [emit] using h

theorem finish (h : emission.Wrote written names) :
    emission.finish = write ((written ++ names.map Piece.closeTag).map Piece.escape) := by
  obtain ⟨output, rfl, counted⟩ := h
  rw [Emission.finish, List.flatten_append, output, flatten_writeClosing, List.map_append,
    write_append]

end Emission.Wrote

/-- The output is written from the pieces. -/
theorem sanitizeHtml_eq (input : Units) :
    sanitizeHtml input = write ((pieces input).map Piece.escape) := by
  have wrote : (Uncached.Scan.opening.run input).emission.Wrote _ _ := Emission.Wrote.empty.run
  rw [sanitizeHtml_eq_uncached, Uncached.sanitizeHtml, wrote.finish, List.nil_append]
  rfl

end SanitizeHtml
