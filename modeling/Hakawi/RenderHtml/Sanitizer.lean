import Hakawi.Html.Allowlist
import Hakawi.RenderHtml.Attributes

/-!
# The render layer's sanitizer

One pass, with the text that is not flushed yet, the stack of open elements and the
element whose content is being dropped.
-/

namespace RenderHtml

open Html

/-- Just past the `>` of the tag that starts here. The walk over its quotes is `tagEnd`. -/
def findTagEnd (input : Units) (start : Nat) (lastGt : Int) : Option Nat :=
  if start ≥ lastGt then none
  else (tagEnd none (input.drop (start + 1))).map fun distance => start + 1 + distance + 1

def isTagNameTerminator (u : Option UInt16) : Bool :=
  u.all fun u => u = unit '>' || u = unit '/' || isSpace u

/-- The unit behind the `<` is not looked at. -/
def isClosingTagFor (input : Units) (position : Nat) (name : Units) : Bool :=
  lowerCase (slice input (position + 2) (position + 2 + name.length)) = name &&
    isTagNameTerminator input[position + 2 + name.length]?

/-- `/^([a-zA-Z][a-zA-Z0-9-]*)/`, in lower case, or nothing. -/
def openName : Units → Units
  | [] => []
  | u :: rest =>
    if isLetter u then lowerCase (u :: rest.takeWhile fun v => isAlphanumeric v || v = unit '-')
    else []

/-- `/^\/?\s*([a-zA-Z][a-zA-Z0-9-]*)/`, in lower case, or nothing. -/
def closeName (inner : Units) : Units :=
  let inner := if inner.head? = some (unit '/') then inner.tail else inner
  openName (inner.dropWhile isSpace)

/-- The stack has the innermost element first. -/
structure Scan where
  out : Units
  stack : List Units
  dropping : Option Units
  text : Units
  i : Nat

namespace Scan

def opening : Scan := ⟨[], [], none, [], 0⟩

def flushText (scan : Scan) : Scan :=
  if scan.text.length = 0 then scan
  else { scan with out := scan.out ++ escapeText (decodeEntities scan.text), text := [] }

def writeClosing (name : Units) : Units := units "</" ++ name ++ units ">"

def closeTag (scan : Scan) (name : Units) : Scan :=
  if name = [] ∨ name ∈ VOID_TAGS then scan
  else if name ∉ scan.stack then scan
  else
    { scan with
      stack := left scan.stack name
      out := scan.out ++ (closed scan.stack name).flatMap writeClosing }

def openTag (scan : Scan) (inner : Units) : Scan :=
  let name := openName inner
  if name = [] then scan
  else if name ∈ CONTENT_DROPPED_TAGS then { scan with dropping := some name }
  else if name ∉ ALLOWED_TAGS then scan
  else
    match renderAttributes name (parseAttributes (inner.drop name.length)) with
    | none => scan
    | some rendered =>
      { scan with
        out := scan.out ++ (unit '<' :: name ++ rendered ++ [unit '>'])
        stack := if name ∈ VOID_TAGS then scan.stack else name :: scan.stack }

variable (input : Units)

/-- Inside of a dropped element nothing is emitted. -/
def drop (scan : Scan) (name : Units) : Scan :=
  match indexOf input (units "<") scan.i with
  | none => { scan with i := input.length }
  | some next =>
    if isClosingTagFor input next name then
      match findTagEnd input next (lastIndexOf (unit '>') input) with
      | none => { scan with i := input.length }
      | some stop => { scan with i := stop, dropping := none }
    else { scan with i := next + 1 }

/-- A `<` that is text. -/
def stray (scan : Scan) : Scan := { scan with text := scan.text ++ units "<", i := scan.i + 1 }

/-- What starts with the `<` that the scan stands at. -/
def markup (scan : Scan) : Scan :=
  let lastGt := lastIndexOf (unit '>') input
  if startsWith input (units "<!--") scan.i then
    { scan.flushText with
      i := (indexOf input (units "-->") (scan.i + 4)).elim input.length (· + 3) }
  else if startsWith input (units "<![CDATA[") scan.i then
    { scan.flushText with i := (indexOf input (units "]]>") scan.i).elim input.length (· + 3) }
  else if input[scan.i + 1]? = some (unit '!') then
    { scan.flushText with i := (findTagEnd input scan.i lastGt).getD input.length }
  else
    let isOpen := (input[scan.i + 1]?).any isLetter
    let isClose := input[scan.i + 1]? = some (unit '/')
    if !isOpen ∧ ¬ isClose then scan.stray
    else
      match findTagEnd input scan.i lastGt with
      | none => scan.stray
      | some stop =>
        let inner := slice input (scan.i + 1) (stop - 1)
        let scan := { scan.flushText with i := stop }
        if isClose then scan.closeTag (closeName inner) else scan.openTag inner

def step (scan : Scan) : Scan :=
  match scan.dropping with
  | some name => scan.drop input name
  | none =>
    match indexOf input (units "<") scan.i with
    | none => { scan with text := scan.text ++ input.drop scan.i, i := input.length }
    | some tagStart =>
      let scan :=
        if tagStart > scan.i then
          { scan with text := scan.text ++ slice input scan.i tagStart, i := tagStart }
        else scan
      scan.markup input

/-- The last text is flushed, and whatever is open is closed. -/
def finish (scan : Scan) : Units :=
  scan.flushText.out ++ scan.flushText.stack.flatMap writeClosing

end Scan

section Progress
variable {input : Units}

@[simp] theorem Scan.flushText_stack (scan : Scan) : scan.flushText.stack = scan.stack := by
  unfold flushText
  split <;> rfl

@[simp] theorem Scan.closeTag_i (scan : Scan) (name : Units) : (scan.closeTag name).i = scan.i := by
  unfold closeTag
  split
  · rfl
  · split <;> rfl

@[simp] theorem Scan.openTag_i (scan : Scan) (inner : Units) : (scan.openTag inner).i = scan.i := by
  simp only [openTag]
  split
  · rfl
  · split
    · rfl
    · split
      · rfl
      · split <;> rfl

theorem findTagEnd_lt {start stop : Nat} {lastGt : Int}
    (h : findTagEnd input start lastGt = some stop) : start + 1 < stop := by
  unfold findTagEnd at h
  split at h
  · cases h
  · obtain ⟨distance, -, rfl⟩ := Option.map_eq_some_iff.mp h
    omega

theorem indexOf_lt {position k : Nat} (h : indexOf input (units "<") position = some k) :
    position ≤ k ∧ k < input.length := by
  obtain ⟨after, within⟩ := indexOf_le h (by decide)
  exact ⟨after, Nat.lt_of_succ_le within⟩

theorem Scan.drop_i {scan : Scan} (name : Units) (more : scan.i < input.length) :
    scan.i < (scan.drop input name).i := by
  unfold drop
  split
  · exact more
  · rename_i next found
    obtain ⟨after, -⟩ := indexOf_lt found
    split
    · split
      · exact more
      · rename_i stop ends
        have further := findTagEnd_lt ends
        show scan.i < stop
        omega
    · exact Nat.lt_succ_of_le after

theorem Scan.markup_i (scan : Scan) (more : scan.i < input.length) :
    scan.i < (scan.markup input).i := by
  have behind : ∀ (needle : Units) (start : Nat), needle ≠ [] → scan.i ≤ start →
      scan.i < (indexOf input needle start).elim input.length (· + 3) := by
    intro needle start nonempty after
    cases found : indexOf input needle start with
    | none => exact more
    | some k =>
      have further := (indexOf_le found nonempty).1
      simp only [Option.elim]
      omega
  unfold markup
  dsimp only
  split
  · exact behind _ _ (by decide) (by omega)
  · split
    · exact behind _ _ (by decide) (le_refl _)
    · split
      · cases ends : findTagEnd input scan.i (lastIndexOf (unit '>') input) with
        | none => exact more
        | some stop =>
          have further := findTagEnd_lt ends
          show scan.i < stop
          omega
      · split
        · exact Nat.lt_succ_self _
        · split
          · exact Nat.lt_succ_self _
          · rename_i stop ends
            have further := findTagEnd_lt ends
            split
            · rw [closeTag_i]
              show scan.i < stop
              omega
            · rw [openTag_i]
              show scan.i < stop
              omega

theorem Scan.step_i {scan : Scan} (more : scan.i < input.length) : scan.i < (scan.step input).i := by
  unfold step
  split
  · exact drop_i _ more
  · split
    · exact more
    · rename_i tagStart found
      obtain ⟨after, within⟩ := indexOf_lt found
      dsimp only
      split
      · exact Nat.lt_of_le_of_lt after (markup_i { scan with
          text := scan.text ++ slice input scan.i tagStart, i := tagStart } within)
      · exact markup_i scan more

end Progress

def Scan.run (input : Units) (scan : Scan) : Scan :=
  if _more : scan.i < input.length then (scan.step input).run input else scan
termination_by input.length - scan.i
decreasing_by
  have further := scan.step_i _more
  omega

def sanitizeHtml (input : Units) : Units := (Scan.opening.run input).finish

example : sanitizeHtml (units "<p>1 < 2<b onclick=x>&lt;</p>") =
    units "<p>1 &lt; 2<b>&lt;</b></p>" := by
  decide +kernel

end RenderHtml
