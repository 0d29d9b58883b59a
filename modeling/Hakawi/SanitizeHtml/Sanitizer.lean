import Hakawi.SanitizeHtml.TagScan

/-!
# The write path's sanitizer

One pass with a cursor that only moves forward, a stack of the open elements and
a count for each name beside it. The pass without the cache is written out too,
and the two passes emit the same.
-/

namespace SanitizeHtml

open Html

/-- The open elements, innermost first, and how many of each name there are. -/
structure OpenElementStack where
  names : List Units
  counts : Units → Int

namespace OpenElementStack

def empty : OpenElementStack := ⟨[], fun _ => 0⟩

def openElement (stack : OpenElementStack) (name : Units) : OpenElementStack :=
  ⟨name :: stack.names, Function.update stack.counts name (stack.counts name + 1)⟩

def writeClosing (name : Units) : Units := units "</" ++ name ++ units ">"

/-- Closes one element after the other, up to the first of this name. What is left
open is `none` if there is none. -/
def closeUntil (name : Units) (counts : Units → Int) :
    List Units → List Units × Option (List Units) × (Units → Int)
  | [] => ([], none, counts)
  | candidate :: outer =>
    let remaining := Function.update counts candidate (counts candidate - 1)
    if candidate = name then ([writeClosing candidate], some outer, remaining)
    else
      let others := closeUntil name remaining outer
      (writeClosing candidate :: others.1, others.2)

def closeElement (stack : OpenElementStack) (name : Units) :
    Option (List Units) × OpenElementStack :=
  if stack.counts name = 0 then (none, stack)
  else
    match closeUntil name stack.counts stack.names with
    | (closings, some names, counts) => (some closings, ⟨names, counts⟩)
    | (_, none, counts) => (none, ⟨stack.names, counts⟩)

end OpenElementStack

/-- What the pass has written, and what is open there. -/
structure Emission where
  output : List Units
  openElements : OpenElementStack

namespace Emission

def empty : Emission := ⟨[], .empty⟩

def push (emission : Emission) (chunk : Units) : Emission :=
  { emission with output := emission.output ++ [chunk] }

def pushText (emission : Emission) (source : Units) (start stop : Nat) : Emission :=
  if stop > start then emission.push (renderText source start stop) else emission

def handleTag (emission : Emission) (tag : ParsedTag) : Emission :=
  if tag.name ∈ DROPPED_VOID_TAGS then emission
  else if tag.name ∈ DROPPED_WITH_CONTENT then emission
  else if tag.closing then
    match emission.openElements.closeElement tag.name with
    | (none, openElements) => { emission with openElements }
    | (some closings, openElements) => ⟨emission.output ++ closings, openElements⟩
  else if tag.name ∉ ALLOWED_TAGS then emission
  else
    match renderOpenTag tag.name tag.attributes with
    | none => emission
    | some openTag =>
      let emitted := emission.push openTag
      if tag.name ∈ VOID_TAGS then emitted
      else { emitted with openElements := emitted.openElements.openElement tag.name }

/-- Whatever is still open is closed, innermost first. -/
def finish (emission : Emission) : Units :=
  (emission.output ++ emission.openElements.names.map OpenElementStack.writeClosing).flatten

end Emission

/-- Where the input goes on behind a comment, a CDATA section or a declaration. -/
def skipDeclaration (source : Units) (tagStart : Nat) : Option Nat :=
  if startsWith source (units "<!--") tagStart then
    some ((indexOf source (units "-->") (tagStart + 4)).elim source.length (· + 3))
  else if startsWith source (units "<![CDATA[") tagStart then
    some ((indexOf source (units "]]>") (tagStart + 9)).elim source.length (· + 3))
  else if source[tagStart + 1]? = some (unit '!') ∨ source[tagStart + 1]? = some (unit '?') then
    some ((indexOf source (units ">") tagStart).elim source.length (· + 1))
  else none

/-- An element that goes with everything inside it. -/
def dropsContent (tag : ParsedTag) : Bool :=
  tag.name ∉ DROPPED_VOID_TAGS && tag.name ∈ DROPPED_WITH_CONTENT && !tag.closing

structure Scan where
  cursor : Nat
  emission : Emission
  cache : TagScanCache

namespace Scan

def opening (source : Units) : Scan := ⟨0, .empty, .opening source⟩

def step (scan : Scan) : Scan :=
  let source := scan.cache.source
  match indexOf source (units "<") scan.cursor with
  | none =>
    { scan with
      cursor := source.length
      emission := scan.emission.push (renderText source scan.cursor source.length) }
  | some tagStart =>
    let emission := scan.emission.pushText source scan.cursor tagStart
    match skipDeclaration source tagStart with
    | some cursor => { scan with cursor, emission }
    | none =>
      match readTag scan.cache tagStart with
      | (none, cache) => ⟨tagStart + 1, emission.push (units "&lt;"), cache⟩
      | (some tag, cache) =>
        if dropsContent tag then
          let skipped := skipDroppedElement cache (tag.stop + 1) tag.name
          ⟨skipped.1, emission, skipped.2⟩
        else ⟨tag.stop + 1, emission.handleTag tag, cache⟩

end Scan

/-- The same pass without the cache. -/
structure Uncached.Scan where
  cursor : Nat
  emission : Emission

def Uncached.Scan.opening : Uncached.Scan := ⟨0, .empty⟩

def Uncached.Scan.step (source : Units) (scan : Uncached.Scan) : Uncached.Scan :=
  match indexOf source (units "<") scan.cursor with
  | none => ⟨source.length, scan.emission.push (renderText source scan.cursor source.length)⟩
  | some tagStart =>
    let emission := scan.emission.pushText source scan.cursor tagStart
    match skipDeclaration source tagStart with
    | some cursor => ⟨cursor, emission⟩
    | none =>
      match Uncached.readTag source tagStart with
      | none => ⟨tagStart + 1, emission.push (units "&lt;")⟩
      | some tag =>
        if dropsContent tag then
          ⟨Uncached.skipDroppedElement source (tag.stop + 1) tag.name, emission⟩
        else ⟨tag.stop + 1, emission.handleTag tag⟩

section Progress
variable {source : Units}

theorem findTagEnd_le {start stop : Nat} (h : Uncached.findTagEnd source start = some stop) :
    start ≤ stop ∧ stop < source.length ∧ source[stop]? = some (unit '>') := by
  fun_induction Uncached.findTagEnd source start with
  | case1 => cases h
  | case2 position within quote closingQuote closed ih =>
    obtain ⟨after, bound, found⟩ := ih h
    have further := (indexOf_le closed (List.cons_ne_nil _ _)).1
    exact ⟨by omega, bound, found⟩
  | case3 position within quote gt =>
    obtain rfl := Option.some.inj h
    exact ⟨le_refl _, within, by rw [List.getElem?_eq_getElem within, gt]⟩
  | case4 position within quote other ih =>
    obtain ⟨after, bound, found⟩ := ih h
    exact ⟨by omega, bound, found⟩
  | case5 => cases h

theorem readTag_le {start : Nat} {tag : ParsedTag} (h : Uncached.readTag source start = some tag) :
    start < tag.stop ∧ tag.stop < source.length := by
  unfold Uncached.readTag at h
  dsimp only at h
  split at h
  · cases h
  · obtain ⟨stop, found, rfl⟩ := Option.map_eq_some_iff.mp h
    obtain ⟨after, bound, -⟩ := findTagEnd_le found
    exact ⟨by simp only [parseTag]; omega, bound⟩

theorem matchingEnd_le {elementName : Units} {depth cursor index : Nat}
    (h : matchingEnd source elementName depth cursor = some index) : cursor ≤ index := by
  fun_induction matchingEnd source elementName depth cursor with
  | case1 => cases h
  | case2 depth cursor within close nextClose open_ nextOpen ih =>
    have further := ih h
    omega
  | case3 depth cursor within close nextClose outer last =>
    obtain rfl := Option.some.inj h
    omega
  | case4 depth cursor within close nextClose outer inner ih =>
    have further := ih h
    omega
  | case5 => cases h

theorem skipDroppedElement_le (elementName : Units) {start : Nat} (within : start ≤ source.length) :
    start ≤ Uncached.skipDroppedElement source start elementName := by
  unfold Uncached.skipDroppedElement
  split
  · exact within
  · rename_i index found
    have after := matchingEnd_le found
    cases closed : Uncached.findTagEnd source index with
    | none => exact within
    | some stop =>
      have further := (findTagEnd_le closed).1
      simp only [Option.elim]
      omega

theorem skipDeclaration_lt {tagStart next : Nat} (h : skipDeclaration source tagStart = some next)
    (within : tagStart < source.length) : tagStart < next := by
  have behind : ∀ (needle : Units) (start extra : Nat), needle ≠ [] → tagStart ≤ start → 0 < extra →
      tagStart < (indexOf source needle start).elim source.length (· + extra) := by
    intro needle start extra nonempty after positive
    cases found : indexOf source needle start with
    | none => exact within
    | some k =>
      have further := (indexOf_le found nonempty).1
      simp only [Option.elim]
      omega
  unfold skipDeclaration at h
  split at h
  · obtain rfl := Option.some.inj h
    exact behind _ _ 3 (by decide) (by omega) (by omega)
  · split at h
    · obtain rfl := Option.some.inj h
      exact behind _ _ 3 (by decide) (by omega) (by omega)
    · split at h
      · obtain rfl := Option.some.inj h
        exact behind _ _ 1 (by decide) (by omega) (by omega)
      · cases h

theorem indexOf_lt {tagStart cursor : Nat} (h : indexOf source (units "<") cursor = some tagStart) :
    cursor ≤ tagStart ∧ tagStart < source.length := by
  obtain ⟨after, within⟩ := indexOf_le h (by decide)
  exact ⟨after, Nat.lt_of_succ_le within⟩

/-- Every step of the pass moves the cursor forward. -/
theorem Uncached.Scan.step_cursor (scan : Uncached.Scan) (more : scan.cursor < source.length) :
    scan.cursor < (scan.step source).cursor := by
  unfold Uncached.Scan.step
  split
  · exact more
  · rename_i tagStart found
    obtain ⟨after, within⟩ := indexOf_lt found
    dsimp only
    split
    · rename_i next skipped
      have further := skipDeclaration_lt skipped within
      exact Nat.lt_of_le_of_lt after further
    · split
      · exact Nat.lt_succ_of_le after
      · rename_i tag read
        obtain ⟨behind, bound⟩ := readTag_le read
        split
        · have further := skipDroppedElement_le tag.name (Nat.succ_le_of_lt bound)
          exact Nat.lt_of_lt_of_le (by omega) further
        · exact Nat.lt_succ_of_lt (Nat.lt_of_le_of_lt after behind)

/-- A step with the cache is a step without it, or it gives a tag up. -/
theorem Scan.step_cursor (scan : Scan) (more : scan.cursor < scan.cache.source.length) :
    scan.cursor < scan.step.cursor := by
  unfold Scan.step
  dsimp only
  split
  · exact more
  · rename_i tagStart found
    obtain ⟨after, within⟩ := indexOf_lt found
    split
    · rename_i next skipped
      have further := skipDeclaration_lt skipped within
      exact Nat.lt_of_le_of_lt after further
    · split
      · exact Nat.lt_succ_of_le after
      · rename_i tag cache read
        have same : cache.source = scan.cache.source := by
          rw [← readTag_source scan.cache tagStart, read]
        obtain ⟨behind, bound⟩ := readTag_le (readTag_fst scan.cache (congrArg Prod.fst read))
        split
        · have further := skipDroppedElement_le tag.name (Nat.succ_le_of_lt bound)
          rw [skipDroppedElement_fst, same]
          exact Nat.lt_of_lt_of_le (by omega) further
        · exact Nat.lt_succ_of_lt (Nat.lt_of_le_of_lt after behind)

theorem Scan.step_source (scan : Scan) : scan.step.cache.source = scan.cache.source := by
  unfold Scan.step
  dsimp only
  split
  · rfl
  · rename_i tagStart found
    split
    · rfl
    · have same := readTag_source scan.cache tagStart
      split
      · rename_i cache read
        rw [read] at same
        exact same
      · rename_i tag cache read
        rw [read] at same
        split
        · exact (skipDroppedElement_source ..).trans same
        · exact same

end Progress

def Scan.run (scan : Scan) : Scan :=
  if _more : scan.cursor < scan.cache.source.length then scan.step.run else scan
termination_by scan.cache.source.length - scan.cursor
decreasing_by
  have further := scan.step_cursor _more
  rw [scan.step_source]
  omega

def Uncached.Scan.run (source : Units) (scan : Uncached.Scan) : Uncached.Scan :=
  if _more : scan.cursor < source.length then (scan.step source).run source else scan
termination_by source.length - scan.cursor
decreasing_by
  have further := scan.step_cursor _more
  omega

def sanitizeHtml (input : Units) : Units := (Scan.opening input).run.emission.finish

def Uncached.sanitizeHtml (input : Units) : Units :=
  (Uncached.Scan.opening.run input).emission.finish

/-- The states the pass goes through. -/
inductive Reachable (input : Units) : Scan → Prop where
  | opening : Reachable input (.opening input)
  | step {scan : Scan} (reached : Reachable input scan)
      (more : scan.cursor < scan.cache.source.length) : Reachable input scan.step

example : sanitizeHtml (units "<p>1 < 2<b>x</p>") = units "<p>1 &lt; 2<b>x</b></p>" := by
  decide +kernel

end SanitizeHtml
