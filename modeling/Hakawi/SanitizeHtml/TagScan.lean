import Hakawi.SanitizeHtml.Attributes

/-!
# Finding the end of a tag

The scan for the end of a tag remembers two things when it fails: from where on
the input has no `>` at all, and a window it has walked outside of quotes up to
the wall it hit. What it remembers is true of the input, so a scan that is not
made would have failed.
-/

namespace SanitizeHtml

open Html

structure ParsedTag where
  name : Units
  closing : Bool
  attributes : List Attribute
  stop : Nat
  deriving DecidableEq

/-- What the scans have learned. `-1` means that nothing is known. -/
structure TagScanCache where
  source : Units
  gtFloor : Int
  failedScanFrom : Int
  failedScanUntil : Int
  documentLastGreaterThan : Option Int

def TagScanCache.opening (source : Units) : TagScanCache := ⟨source, -1, -1, -1, none⟩

def wouldTagScanFail (cache : TagScanCache) (start : Nat) : Bool :=
  if cache.failedScanFrom = -1 then false
  else cache.failedScanFrom ≤ start && start < cache.failedScanUntil

def rememberFailedScan (cache : TagScanCache) (walkStart outsideRunFrom stoppedAt : Nat) :
    TagScanCache :=
  let cache :=
    if stoppedAt ≥ cache.source.length then
      let documentLast := cache.documentLastGreaterThan.getD (lastIndexOf (unit '>') cache.source)
      let floor : Int := if documentLast < walkStart then walkStart else documentLast + 1
      { cache with
        documentLastGreaterThan := some documentLast
        gtFloor := if cache.gtFloor = -1 then floor else min cache.gtFloor floor }
    else cache
  if cache.failedScanFrom = -1 ∨ outsideRunFrom < cache.failedScanFrom ∨
      walkStart ≥ cache.failedScanUntil then
    { cache with failedScanFrom := outsideRunFrom, failedScanUntil := stoppedAt }
  else cache

def isQuote (u : UInt16) : Bool := u = DOUBLE_QUOTE || u = SINGLE_QUOTE

/-- How a walk ends: at the `>` it looked for, or at a wall. -/
inductive TagWalk where
  | closes (position : Nat)
  | fails (outsideRunFrom stoppedAt : Nat)
  deriving DecidableEq

/-- Passes over quoted runs as a whole. -/
def walkTag (source : Units) (position outsideRunFrom : Nat) : TagWalk :=
  if h : position < source.length then
    if isQuote source[position] then
      match hq : indexOf source [source[position]] (position + 1) with
      | none => .fails outsideRunFrom position
      | some closingQuote => walkTag source (closingQuote + 1) (closingQuote + 1)
    else if source[position] = unit '>' then .closes position
    else walkTag source (position + 1) outsideRunFrom
  else .fails outsideRunFrom source.length
termination_by source.length - position
decreasing_by
  · have further := (indexOf_le hq (List.cons_ne_nil _ _)).1
    omega
  · omega

def findTagEnd (cache : TagScanCache) (start : Nat) : Option Nat × TagScanCache :=
  match walkTag cache.source start start with
  | .closes position => (some position, cache)
  | .fails outsideRunFrom stoppedAt =>
    (none, rememberFailedScan cache start outsideRunFrom stoppedAt)

/-- `/[a-zA-Z][a-zA-Z0-9:._-]*/y`, at this position. -/
def TAG_NAME_PATTERN (source : Units) (position : Nat) : Option Units :=
  match source.drop position with
  | [] => none
  | u :: rest => if isLetter u then some (u :: rest.takeWhile isNameRest) else none

def isClosing (source : Units) (start : Nat) : Bool := source[start + 1]? = some (unit '/')

/-- The tag from `start` to the `>` that was found for it. -/
def parseTag (source : Units) (start : Nat) (name : Units) (stop : Nat) : ParsedTag :=
  let closing := isClosing source start
  let inner := slice source (start + 1 + closing.toNat + name.length) stop
  let inner := if inner.getLast? = some (unit '/') then inner.dropLast else inner
  ⟨lowerCase name, closing, parseAttributes inner, stop⟩

def readTag (cache : TagScanCache) (start : Nat) : Option ParsedTag × TagScanCache :=
  let index := start + 1 + (isClosing cache.source start).toNat
  if cache.gtFloor ≠ -1 ∧ start ≥ cache.gtFloor then (none, cache)
  else
    match TAG_NAME_PATTERN cache.source index with
    | none => (none, cache)
    | some name =>
      if wouldTagScanFail cache (index + name.length) then (none, cache)
      else
        let found := findTagEnd cache (index + name.length)
        (found.1.map (parseTag cache.source start name), found.2)

/-- `<name` or `</name`, and then a space, a slash, a `>` or the end. -/
def namesElement (opening name rest : Units) : Bool :=
  lowerCase (rest.take (opening ++ name).length) = opening ++ name &&
    (rest.drop (opening ++ name).length).head?.all fun u => isSpace u || u ∈ units "/>"

/-- Where the name of the end tag stops that matches as many open ones. -/
def matchingEnd (source elementName : Units) (depth cursor : Nat) : Option Nat :=
  if _ : cursor < source.length then
    match searchBy (namesElement (units "</") elementName) (source.drop cursor) with
    | none => none
    | some close =>
      match (searchBy (namesElement (units "<") elementName) (source.drop cursor)).filter
          (· < close) with
      | some open_ => matchingEnd source elementName (depth + 1) (cursor + open_ + 1)
      | none =>
        if depth - 1 = 0 then some (cursor + close + 2 + elementName.length)
        else matchingEnd source elementName (depth - 1) (cursor + close + 2 + elementName.length)
  else none
termination_by source.length - cursor

/-- Where the input goes on behind a dropped element. -/
def skipDroppedElement (cache : TagScanCache) (start : Nat) (elementName : Units) :
    Nat × TagScanCache :=
  match matchingEnd cache.source elementName 1 start with
  | none => (cache.source.length, cache)
  | some index =>
    let found := findTagEnd cache index
    (found.1.elim cache.source.length (· + 1), found.2)

/-! ### The same without the cache -/

namespace Uncached
variable (source : Units)

def findTagEnd (position : Nat) : Option Nat :=
  if h : position < source.length then
    if isQuote source[position] then
      match hq : indexOf source [source[position]] (position + 1) with
      | none => none
      | some closingQuote => findTagEnd (closingQuote + 1)
    else if source[position] = unit '>' then some position
    else findTagEnd (position + 1)
  else none
termination_by source.length - position
decreasing_by
  · have further := (indexOf_le hq (List.cons_ne_nil _ _)).1
    omega
  · omega

def readTag (start : Nat) : Option ParsedTag :=
  let index := start + 1 + (isClosing source start).toNat
  match TAG_NAME_PATTERN source index with
  | none => none
  | some name => (findTagEnd source (index + name.length)).map (parseTag source start name)

def skipDroppedElement (start : Nat) (elementName : Units) : Nat :=
  match matchingEnd source elementName 1 start with
  | none => source.length
  | some index => (findTagEnd source index).elim source.length (· + 1)

end Uncached

section Walks
variable {source : Units}

/-- Neither a quote nor a `>` stands here. -/
def Plain (source : Units) (start stop : Nat) : Prop :=
  ∀ k, start ≤ k → k < stop → ∀ u ∈ source[k]?, isQuote u = false ∧ u ≠ unit '>'

/-- The end of the input, or a quote that is not closed. -/
def Wall (source : Units) (position : Nat) : Prop :=
  ∀ u ∈ source[position]?, isQuote u = true ∧ indexOf source [u] (position + 1) = none

/-- A walk that fails was outside of quotes from the run it names on, up to a wall. -/
theorem walkTag_fails {position outside from_ stoppedAt : Nat}
    (h : walkTag source position outside = .fails from_ stoppedAt)
    (plain : Plain source outside position) : Plain source from_ stoppedAt ∧ Wall source stoppedAt := by
  fun_induction walkTag source position outside with
  | case1 position outside within quote unclosed =>
    obtain ⟨rfl, rfl⟩ := TagWalk.fails.inj h
    refine ⟨plain, fun u hu => ?_⟩
    rw [List.getElem?_eq_getElem within] at hu
    obtain rfl := Option.some.inj hu
    exact ⟨quote, unclosed⟩
  | case2 position outside within quote closingQuote closed ih =>
    exact ih h fun k above below => absurd above (by omega)
  | case3 => cases h
  | case4 position outside within quote other ih =>
    refine ih h fun k above below u hu => ?_
    by_cases before : k < position
    · exact plain k above before u hu
    · obtain rfl : k = position := by omega
      rw [List.getElem?_eq_getElem within] at hu
      obtain rfl := Option.some.inj hu
      exact ⟨Bool.eq_false_iff.mpr quote, other⟩
  | case5 position outside beyond =>
    obtain ⟨rfl, rfl⟩ := TagWalk.fails.inj h
    refine ⟨fun k above below => ?_, fun u hu => ?_⟩
    · exact plain k above (by omega)
    · simp at hu

/-- Whatever starts between quotes and a wall runs into it. -/
theorem findTagEnd_wall {start stop : Nat} (plain : Plain source start stop)
    (wall : Wall source stop) {k : Nat} (above : start ≤ k) (below : k ≤ stop) :
    Uncached.findTagEnd source k = none := by
  obtain ⟨distance, rfl⟩ := Nat.exists_eq_add_of_le below
  induction distance generalizing k with
  | zero =>
    rw [Uncached.findTagEnd]
    split
    · rename_i within
      obtain ⟨quote, unclosed⟩ := wall source[k] (List.getElem?_eq_getElem within)
      rw [if_pos quote]
      split
      · rfl
      · rename_i closed
        rw [Nat.add_zero] at unclosed
        rw [unclosed] at closed
        cases closed
    · rfl
  | succ distance ih =>
    rw [Uncached.findTagEnd]
    split
    · rename_i within
      obtain ⟨unquoted, other⟩ := plain k above (by omega) source[k] (List.getElem?_eq_getElem within)
      rw [if_neg (by simp [unquoted]), if_neg other]
      have same : k + (distance + 1) = k + 1 + distance := by omega
      rw [same] at plain wall
      exact ih (by omega) plain wall (by omega)
    · rfl

theorem findTagEnd_walkTag (position outside : Nat) :
    Uncached.findTagEnd source position =
      match walkTag source position outside with
      | .closes stop => some stop
      | .fails _ _ => none := by
  fun_induction walkTag source position outside with
  | case1 position outside within quote unclosed =>
    rw [Uncached.findTagEnd, dif_pos within, if_pos quote]
    split
    · rfl
    · rename_i closed
      rw [unclosed] at closed
      cases closed
  | case2 position outside within quote closingQuote closed ih =>
    rw [Uncached.findTagEnd, dif_pos within, if_pos quote]
    split
    · rename_i unclosed
      rw [closed] at unclosed
      cases unclosed
    · rename_i other found
      rw [closed] at found
      obtain rfl := Option.some.inj found
      exact ih
  | case3 position outside within quote gt =>
    rw [Uncached.findTagEnd, dif_pos within, if_neg quote, if_pos gt]
  | case4 position outside within quote other ih =>
    rw [Uncached.findTagEnd, dif_pos within, if_neg quote, if_neg other]
    exact ih
  | case5 position outside beyond =>
    rw [Uncached.findTagEnd, dif_neg beyond]

theorem findTagEnd_of_no_gt {position : Nat}
    (none_ : ∀ k, position ≤ k → source[k]? ≠ some (unit '>')) :
    Uncached.findTagEnd source position = none := by
  fun_induction Uncached.findTagEnd source position with
  | case1 => rfl
  | case2 position within quote closingQuote closed ih =>
    refine ih fun k above => none_ k ?_
    have further := (indexOf_le closed (List.cons_ne_nil _ _)).1
    omega
  | case3 position within quote gt =>
    exact absurd (by rw [List.getElem?_eq_getElem within, gt]) (none_ position (le_refl _))
  | case4 position within quote other ih => exact ih fun k above => none_ k (by omega)
  | case5 => rfl

end Walks

section Results
variable (cache : TagScanCache)

@[simp] theorem rememberFailedScan_source (walkStart outsideRunFrom stoppedAt : Nat) :
    (rememberFailedScan cache walkStart outsideRunFrom stoppedAt).source = cache.source := by
  unfold rememberFailedScan
  by_cases whole : stoppedAt ≥ cache.source.length
  · simp only [if_pos whole]
    split <;> rfl
  · simp only [if_neg whole]
    split <;> rfl

@[simp] theorem findTagEnd_fst (start : Nat) :
    (findTagEnd cache start).1 = Uncached.findTagEnd cache.source start := by
  rw [findTagEnd_walkTag start start, findTagEnd]
  cases walkTag cache.source start start <;> rfl

@[simp] theorem findTagEnd_source (start : Nat) :
    (findTagEnd cache start).2.source = cache.source := by
  rw [findTagEnd]
  cases walkTag cache.source start start with
  | closes stop => rfl
  | fails outsideRunFrom stoppedAt => exact rememberFailedScan_source ..

@[simp] theorem readTag_source (start : Nat) : (readTag cache start).2.source = cache.source := by
  unfold readTag
  dsimp only
  split
  · rfl
  · split
    · rfl
    · split
      · rfl
      · exact findTagEnd_source ..

/-- A tag that is read is the one that is there. -/
theorem readTag_fst {start : Nat} {tag : ParsedTag} (h : (readTag cache start).1 = some tag) :
    Uncached.readTag cache.source start = some tag := by
  unfold readTag at h
  unfold Uncached.readTag
  dsimp only at h ⊢
  split at h
  · cases h
  · split at h
    · cases h
    · split at h
      · cases h
      · rw [← findTagEnd_fst]
        exact h

@[simp] theorem skipDroppedElement_fst (start : Nat) (elementName : Units) :
    (skipDroppedElement cache start elementName).1 =
      Uncached.skipDroppedElement cache.source start elementName := by
  unfold skipDroppedElement Uncached.skipDroppedElement
  cases matchingEnd cache.source elementName 1 start with
  | none => rfl
  | some index => exact congrArg (Option.elim · _ _) (findTagEnd_fst cache index)

@[simp] theorem skipDroppedElement_source (start : Nat) (elementName : Units) :
    (skipDroppedElement cache start elementName).2.source = cache.source := by
  unfold skipDroppedElement
  cases matchingEnd cache.source elementName 1 start with
  | none => rfl
  | some index => exact findTagEnd_source ..

end Results

/-- What the cache claims is so. -/
structure TagScanCache.Sound (cache : TagScanCache) : Prop where
  floor : cache.gtFloor ≠ -1 → ∀ k : Nat, cache.gtFloor ≤ k → cache.source[k]? ≠ some (unit '>')
  window : cache.failedScanFrom ≠ -1 → ∀ k : Nat, cache.failedScanFrom ≤ k →
    k < cache.failedScanUntil → Uncached.findTagEnd cache.source k = none
  last : ∀ last ∈ cache.documentLastGreaterThan, last = lastIndexOf (unit '>') cache.source

namespace TagScanCache.Sound
variable {cache : TagScanCache}

theorem opening (source : Units) : (TagScanCache.opening source).Sound :=
  ⟨fun known => absurd rfl known, fun known => absurd rfl known, nofun⟩

/-- The first half of what is remembered: where the last `>` is. -/
theorem rememberFloor (h : cache.Sound) (walkStart : Nat) :
    let documentLast := cache.documentLastGreaterThan.getD (lastIndexOf (unit '>') cache.source)
    let floor : Int := if documentLast < walkStart then walkStart else documentLast + 1
    ({ cache with
      documentLastGreaterThan := some documentLast
      gtFloor := if cache.gtFloor = -1 then floor else min cache.gtFloor floor } :
        TagScanCache).Sound := by
  intro documentLast floor
  have last : documentLast = lastIndexOf (unit '>') cache.source := by
    cases known : cache.documentLastGreaterThan with
    | none => simp [documentLast, known]
    | some last => simpa [documentLast, known] using h.last last known
  have above : ∀ k : Nat, floor ≤ k → cache.source[k]? ≠ some (unit '>') := by
    intro k hk
    refine lastIndexOf_lt ?_
    rw [← last]
    by_cases before : documentLast < walkStart
    · simp only [floor, if_pos before] at hk
      omega
    · simp only [floor, if_neg before] at hk
      omega
  refine ⟨fun _ k hk => ?_, h.window, fun other same => ?_⟩
  · by_cases unknown : cache.gtFloor = -1
    · rw [if_pos unknown] at hk
      exact above k hk
    · rw [if_neg unknown] at hk
      have reached : min cache.gtFloor floor ≤ k := hk
      by_cases old : cache.gtFloor ≤ k
      · exact h.floor unknown k old
      · exact above k (by omega)
  · obtain rfl := Option.some.inj same
    exact last

/-- What a walk that failed leaves to remember. -/
theorem rememberFailedScan (h : cache.Sound) {start outsideRunFrom stoppedAt : Nat}
    (fails : walkTag cache.source start start = .fails outsideRunFrom stoppedAt) :
    (rememberFailedScan cache start outsideRunFrom stoppedAt).Sound := by
  obtain ⟨plain, wall⟩ := walkTag_fails fails fun k above below => absurd above (by omega)
  have windowed : ∀ known : TagScanCache, known.Sound → known.source = cache.source →
      ({ known with failedScanFrom := outsideRunFrom, failedScanUntil := stoppedAt } :
        TagScanCache).Sound := by
    intro known sound same
    refine ⟨sound.floor, fun _ k above below => ?_, sound.last⟩
    rw [← same] at plain wall
    exact findTagEnd_wall plain wall (Int.ofNat_le.mp above) (Nat.le_of_lt (Int.ofNat_lt.mp below))
  unfold SanitizeHtml.rememberFailedScan
  by_cases whole : stoppedAt ≥ cache.source.length
  · have floored := h.rememberFloor start
    simp only [if_pos whole]
    split
    · exact windowed _ floored rfl
    · exact floored
  · simp only [if_neg whole]
    split
    · exact windowed _ h rfl
    · exact h

/-- A scan learns nothing that is wrong. -/
theorem findTagEnd (h : cache.Sound) (start : Nat) : (findTagEnd cache start).2.Sound := by
  unfold SanitizeHtml.findTagEnd
  cases walk : walkTag cache.source start start with
  | closes stop => exact h
  | fails outsideRunFrom stoppedAt => exact h.rememberFailedScan walk

theorem wouldTagScanFail (h : cache.Sound) {start : Nat} (would : wouldTagScanFail cache start) :
    Uncached.findTagEnd cache.source start = none := by
  unfold SanitizeHtml.wouldTagScanFail at would
  split at would
  · cases would
  · rename_i known
    simp only [Bool.and_eq_true, decide_eq_true_eq] at would
    exact h.window known start would.1 would.2

/-- What the cache keeps from being scanned has no end to find. -/
theorem readTag_fst (h : cache.Sound) (start : Nat) :
    (readTag cache start).1 = Uncached.readTag cache.source start := by
  unfold SanitizeHtml.readTag Uncached.readTag
  dsimp only
  cases TAG_NAME_PATTERN cache.source (start + 1 + (isClosing cache.source start).toNat) with
  | none =>
    split <;> rfl
  | some name =>
    dsimp only
    split
    · rename_i beyond
      have unfinished : Uncached.findTagEnd cache.source
          (start + 1 + (isClosing cache.source start).toNat + name.length) = none :=
        findTagEnd_of_no_gt fun k above => h.floor beyond.1 k (by omega)
      rw [unfinished, Option.map_none]
    · split
      · rename_i would
        rw [h.wouldTagScanFail would, Option.map_none]
      · rw [findTagEnd_fst]

theorem readTag (h : cache.Sound) (start : Nat) : (readTag cache start).2.Sound := by
  unfold SanitizeHtml.readTag
  dsimp only
  split
  · exact h
  · split
    · exact h
    · split
      · exact h
      · exact h.findTagEnd _

theorem skipDroppedElement (h : cache.Sound) (start : Nat) (elementName : Units) :
    (skipDroppedElement cache start elementName).2.Sound := by
  unfold SanitizeHtml.skipDroppedElement
  cases matchingEnd cache.source elementName 1 start with
  | none => exact h
  | some index => exact h.findTagEnd index

end TagScanCache.Sound
end SanitizeHtml
