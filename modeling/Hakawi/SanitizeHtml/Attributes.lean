import Hakawi.Html.AttributeText

/-!
# What the write path keeps of a tag

The allowlists, the URL policy and the attributes of one element that survive.
-/

namespace SanitizeHtml

open Html

def ALLOWED_TAGS : List Units :=
  ["p", "br", "strong", "b", "em", "i", "u", "s", "blockquote", "h1", "h2", "h3", "h4", "h5", "h6",
    "ul", "ol", "li", "a", "img", "hr", "pre", "code", "span", "div", "table", "thead", "tbody",
    "tr", "th", "td", "figure", "figcaption"].map units

def DROPPED_WITH_CONTENT : List Units := ["script", "style"].map units

def DROPPED_VOID_TAGS : List Units :=
  ["meta", "link", "base", "input", "param", "source", "track", "area"].map units

def VOID_TAGS : List Units := ["br", "hr", "img"].map units

def ALLOWED_ATTRIBUTES : List (Units × List Units) :=
  [(units "a", [units "href"]), (units "img", ["src", "alt", "width", "height"].map units)]

def URL_ATTRIBUTES : List Units := ["href", "src"].map units

def ALLOWED_URL_SCHEMES : List Units := ["http", "https", "mailto"].map units

/-- `/^([a-zA-Z][a-zA-Z0-9+.-]*):/` -/
def SCHEME_PATTERN : Units → Option Units
  | [] => none
  | u :: rest =>
    let tail := rest.takeWhile fun v => isAlphanumeric v || v ∈ units "+.-"
    if isLetter u && (rest.drop tail.length).head? = some (unit ':') then some (u :: tail) else none

def isIgnoredUrlCodePoint (codePoint : UInt16) : Bool :=
  codePoint ≤ 0x20 || (0x7f ≤ codePoint && codePoint ≤ 0x9f)

def stripIgnoredUrlChars (value : Units) : Units := value.filter (!isIgnoredUrlCodePoint ·)

def isNameStart (u : UInt16) : Bool := isLetter u || u ∈ units "_:"

def isNameRest (u : UInt16) : Bool := isAlphanumeric u || u ∈ units ":._-"

/-- `/^[a-zA-Z_:][a-zA-Z0-9:._-]*$/` -/
def ATTRIBUTE_NAME_PATTERN : Units → Bool
  | [] => false
  | u :: rest => isNameStart u && rest.all isNameRest

/-- `/^[0-9]{1,5}(px|em|%)?$/` -/
def DIMENSION_PATTERN (value : Units) : Bool :=
  let digits := value.takeWhile isDigit
  1 ≤ digits.length && digits.length ≤ 5 &&
    value.drop digits.length ∈ ["", "px", "em", "%"].map units

def NAMED_ENTITIES : List (String × String) :=
  [("amp", "&"), ("lt", "<"), ("gt", ">"), ("quot", "\""), ("apos", "'"), ("nbsp", " "),
    ("colon", ":"), ("semi", ";"), ("tab", "\t"), ("newline", "\n"), ("cr", "\r"), ("sol", "/"),
    ("bsol", "\\"), ("period", "."), ("comma", ","), ("excl", "!"), ("quest", "?"), ("num", "#"),
    ("percnt", "%"), ("dollar", "$"), ("ast", "*"), ("plus", "+"), ("hyphen", "-"),
    ("lowbar", "_"), ("equals", "="), ("commat", "@"), ("grave", "\x60"), ("tilde", "~"),
    ("lpar", "("), ("rpar", ")"), ("lsqb", "["), ("rsqb", "]"), ("lcub", "\x7b"),
    ("rcub", "\x7d"), ("verbar", "|"), ("circ", "^"), ("copy", "©"), ("reg", "®"), ("trade", "™"),
    ("hellip", "…"), ("mdash", "—"), ("ndash", "–"), ("lsquo", "‘"), ("rsquo", "’"),
    ("ldquo", "“"), ("rdquo", "”"), ("bull", "•"), ("dagger", "†"), ("deg", "°"), ("middot", "·"),
    ("laquo", "«"), ("raquo", "»"), ("times", "×"), ("divide", "÷"), ("euro", "€"), ("pound", "£"),
    ("yen", "¥"), ("cent", "¢"), ("sect", "§"), ("para", "¶"), ("frac12", "½"), ("sup2", "²"),
    ("sup3", "³")]

/-- The table is an object, so it has one more lower case name: its constructor, which
is written out as the function it is. -/
def namedEntity (name : Units) : Option Units :=
  if name = units "constructor" then some (units "function Object() \x7b [native code] \x7d")
  else (NAMED_ENTITIES.find? (units ·.1 = name)).map (units ·.2)

/-- `/&(#[0-9]+|#[xX][0-9a-fA-F]+|[a-zA-Z][a-zA-Z0-9]*);?/g` -/
def ENTITY_PATTERN : ReferencePattern := ⟨fun u => u ∈ units "xX", false⟩

def decodeNumericReference (reference : Units) : Units :=
  let isHex := (reference.drop 1).head? = some (unit 'x') ∨
    (reference.drop 1).head? = some (unit 'X')
  let codePoint :=
    if isHex then parseInt (reference.drop 2) 16 else parseInt (reference.drop 1) 10
  if codePoint > 0x10ffff then [0xfffd] else fromCodePoint codePoint

def resolveTextEntity (reference : Units) (_semicolon : Bool) : Option Units :=
  if reference.head? = some (unit '#') then some (decodeNumericReference reference)
  else namedEntity (lowerCase reference)

def decodeTextEntities (value : Units) : Units :=
  replaceReferences ENTITY_PATTERN resolveTextEntity 0 value

/-- In an attribute a name needs its semicolon. -/
def resolveUrlEntity (reference : Units) (semicolon : Bool) : Option Units :=
  if reference.head? = some (unit '#') then some (decodeNumericReference reference)
  else if !semicolon then none
  else namedEntity (lowerCase reference)

def decodeUrlEntities (value : Units) : Units :=
  replaceReferences ENTITY_PATTERN resolveUrlEntity 0 value

structure NormalizedUrl where
  scheme : Option Units
  cleaned : Units

def normalizeUrl (value : Units) : NormalizedUrl :=
  let cleaned := stripIgnoredUrlChars value
  ⟨(SCHEME_PATTERN cleaned).map lowerCase, cleaned⟩

def isUrlAllowed (rawValue elementName : Units) : Bool :=
  let normalized := normalizeUrl (decodeUrlEntities (decodeUrlEntities rawValue))
  if units "//" <+: normalized.cleaned ∨ [BACKSLASH] <+: normalized.cleaned then false
  else
    match normalized.scheme with
    | none => elementName = units "img"
    | some scheme => scheme ∈ ALLOWED_URL_SCHEMES

/-- One run of text, decoded once and escaped. -/
def renderText (source : Units) (start stop : Nat) : Units :=
  if start ≥ stop then [] else escapeText (decodeTextEntities (slice source start stop))

/-- The names and values of a tag. A bare value ends at a space or at a quote. -/
def ATTRIBUTE_PATTERN : AttributePattern :=
  ⟨isNameStart, isNameRest,
    fun u => !isSpace u && u ∉ DOUBLE_QUOTE :: SINGLE_QUOTE :: units "\x60=<>"⟩

def parseAttributes (inner : Units) : List Attribute := ATTRIBUTE_PATTERN.readAll 0 inner

/-- The loop over the attributes of an element. -/
structure Rendering where
  rendered : List Units
  srcPresent : Bool
  srcAllowed : Bool

def writeAttribute (name value : Units) : Units :=
  name ++ unit '=' :: DOUBLE_QUOTE :: value ++ [DOUBLE_QUOTE]

def renderAttribute (elementName : Units) (allowed : List Units) (state : Rendering)
    (attr : Attribute) : Rendering :=
  if attr.name ∉ allowed ∨ !ATTRIBUTE_NAME_PATTERN attr.name then state
  else if units "on" <+: attr.name then state
  else if attr.name ∈ URL_ATTRIBUTES then
    let value := trim attr.value
    let state := { state with srcPresent := state.srcPresent || attr.name = units "src" }
    if value.length = 0 ∨ !isUrlAllowed value elementName then state
    else
      { state with
        srcAllowed := state.srcAllowed || attr.name = units "src"
        rendered := state.rendered ++
          [writeAttribute attr.name (escapeAttributeValue (decodeUrlEntities value))] }
  else if attr.name = units "width" ∨ attr.name = units "height" then
    let value := trim attr.value
    if !DIMENSION_PATTERN value then state
    else { state with
      rendered := state.rendered ++ [writeAttribute attr.name (escapeAttributeValue value)] }
  else if attr.name = units "alt" then
    { state with
      rendered := state.rendered ++
        [writeAttribute (units "alt") (escapeAttributeValue (decodeTextEntities attr.value))] }
  else state

structure RenderedAttributes where
  text : Units
  srcUnusable : Bool

def renderAttributes (elementName : Units) (attributes : List Attribute) : RenderedAttributes :=
  match ALLOWED_ATTRIBUTES.lookup elementName with
  | none => ⟨[], elementName = units "img"⟩
  | some allowed =>
    let state := attributes.foldl (renderAttribute elementName allowed) ⟨[], false, false⟩
    ⟨if state.rendered.length = 0 then [] else unit ' ' :: (units " ").intercalate state.rendered,
      elementName = units "img" && !(state.srcPresent && state.srcAllowed)⟩

/-- An image without a usable source is not emitted at all. -/
def renderOpenTag (elementName : Units) (attributes : List Attribute) : Option Units :=
  let rendered := renderAttributes elementName attributes
  if rendered.srcUnusable then none
  else some (unit '<' :: elementName ++ rendered.text ++ [unit '>'])

/-- What is left of an attribute, if anything is. -/
def keptAttribute (elementName : Units) (allowed : List Units) (attr : Attribute) :
    Option Attribute :=
  if attr.name ∉ allowed ∨ !ATTRIBUTE_NAME_PATTERN attr.name then none
  else if units "on" <+: attr.name then none
  else if attr.name ∈ URL_ATTRIBUTES then
    if (trim attr.value).length = 0 ∨ !isUrlAllowed (trim attr.value) elementName then none
    else some ⟨attr.name, decodeUrlEntities (trim attr.value)⟩
  else if attr.name = units "width" ∨ attr.name = units "height" then
    if !DIMENSION_PATTERN (trim attr.value) then none else some ⟨attr.name, trim attr.value⟩
  else if attr.name = units "alt" then some ⟨attr.name, decodeTextEntities attr.value⟩
  else none

def keptAttributes (elementName : Units) (attributes : List Attribute) : List Attribute :=
  match ALLOWED_ATTRIBUTES.lookup elementName with
  | none => []
  | some allowed => attributes.filterMap (keptAttribute elementName allowed)

/-- What is left of an open tag, if anything is. -/
def keptTag (elementName : Units) (attributes : List Attribute) : Option Piece :=
  if elementName = units "img" ∧
    ∀ attr ∈ keptAttributes elementName attributes, attr.name ≠ units "src" then none
  else some (.openTag elementName (keptAttributes elementName attributes))

section Kept
variable (elementName : Units) (allowed : List Units)

theorem renderAttribute_rendered (state : Rendering) (attr : Attribute) :
    (renderAttribute elementName allowed state attr).rendered = state.rendered ++
      ((keptAttribute elementName allowed attr).map fun kept =>
        writeAttribute kept.name (escapeAttributeValue kept.value)).toList := by
  unfold renderAttribute keptAttribute
  split
  · simp
  · split
    · simp
    · split
      · dsimp only
        split <;> simp
      · split
        · dsimp only
          split <;> simp
        · split
          · simp [*]
          · simp

theorem renderAttribute_src (state : Rendering) (attr : Attribute)
    (present : state.srcAllowed → state.srcPresent) :
    let next := renderAttribute elementName allowed state attr
    (next.srcAllowed = (state.srcAllowed ||
      (keptAttribute elementName allowed attr).any (·.name = units "src"))) ∧
      (next.srcAllowed → next.srcPresent) := by
  unfold renderAttribute keptAttribute
  split
  · simpa using present
  · split
    · simpa using present
    · split
      · dsimp only
        split
        · simp
          tauto
        · simp
          tauto
      · rename_i others
        have other : ¬ attr.name = units "src" := by
          intro same
          exact others (by rw [same]; decide)
        split
        · dsimp only
          split <;> simpa [other] using present
        · split <;> simpa [other] using present

theorem renderAttributes_loop (attributes : List Attribute) (state : Rendering)
    (present : state.srcAllowed → state.srcPresent) :
    let last := attributes.foldl (renderAttribute elementName allowed) state
    let kept := attributes.filterMap (keptAttribute elementName allowed)
    last.rendered = state.rendered ++ kept.map (fun attr =>
        writeAttribute attr.name (escapeAttributeValue attr.value)) ∧
      last.srcAllowed = (state.srcAllowed || kept.any (·.name = units "src")) ∧
      (last.srcAllowed → last.srcPresent) := by
  induction attributes generalizing state with
  | nil => simpa using present
  | cons attr rest ih =>
    obtain ⟨allowed_, present_⟩ := renderAttribute_src elementName allowed state attr present
    obtain ⟨rendered, src, still⟩ := ih (renderAttribute elementName allowed state attr) present_
    rw [renderAttribute_rendered] at rendered
    rw [allowed_] at src
    simp only [List.foldl_cons]
    refine ⟨rendered.trans ?_, src.trans ?_, still⟩
    · cases hk : keptAttribute elementName allowed attr <;> simp [hk]
    · cases hk : keptAttribute elementName allowed attr <;> simp [hk, Bool.or_assoc]

theorem join_eq_flatMap (rendered : List Units) :
    (if rendered.length = 0 then [] else unit ' ' :: (units " ").intercalate rendered) =
      rendered.flatMap (unit ' ' :: ·) := by
  cases rendered with
  | nil => rfl
  | cons first rest =>
    simp only [List.length_cons, Nat.add_one_ne_zero, if_false, List.flatMap_cons, List.cons_append]
    congr 1
    induction rest generalizing first with
    | nil => simp [List.intercalate]
    | cons second rest ih =>
      have further := ih second
      have blank : units " " = [unit ' '] := rfl
      simp only [List.intercalate, blank, List.intersperse_cons_cons, List.flatten_cons,
        List.flatMap_cons] at further ⊢
      rw [further]
      rfl

/-- What the loop collected makes the tag, unless it is an image without a source. -/
theorem openTag_of_kept (elementName : Units) (kept : List Attribute) :
    (if elementName = units "img" && !kept.any (·.name = units "src") then none
      else some (unit '<' :: elementName ++ (kept.map fun attr =>
        writeAttribute attr.name (escapeAttributeValue attr.value)).flatMap (unit ' ' :: ·) ++
          [unit '>'])) =
      (if elementName = units "img" ∧ ∀ attr ∈ kept, attr.name ≠ units "src" then none
        else some (Piece.openTag elementName kept)).map fun piece => piece.escape.write := by
  have written : (kept.map fun attr =>
      writeAttribute attr.name (escapeAttributeValue attr.value)).flatMap (unit ' ' :: ·) =
        (kept.map Attribute.escape).flatMap Attribute.write := by
    simp [List.flatMap_map, writeAttribute, Attribute.escape, Attribute.write]
  rw [written]
  by_cases image : elementName = units "img"
  · by_cases without : ∀ attr ∈ kept, attr.name ≠ units "src"
    · have srcless : kept.any (·.name = units "src") = false := by simpa using without
      rw [if_pos (by simp [srcless, image]), if_pos ⟨image, without⟩, Option.map_none]
    · have sourced : kept.any (·.name = units "src") = true := by simpa using without
      rw [if_neg (by simp [sourced]), if_neg fun both => without both.2]
      simp [Piece.escape, Piece.write]
  · simp [image, Piece.escape, Piece.write]

/-- An open tag is rendered with what is kept of it, escaped. -/
theorem renderOpenTag_eq (elementName : Units) (attributes : List Attribute) :
    renderOpenTag elementName attributes =
      (keptTag elementName attributes).map fun piece => piece.escape.write := by
  unfold renderOpenTag renderAttributes keptTag keptAttributes
  cases ALLOWED_ATTRIBUTES.lookup elementName with
  | none =>
    by_cases image : elementName = units "img" <;> simp [image, Piece.escape, Piece.write]
  | some allowed =>
    obtain ⟨rendered, src, present⟩ := renderAttributes_loop elementName allowed attributes
      ⟨[], false, false⟩ (by simp)
    have usable : ∀ a b : Bool, (b → a) → (a && b) = b := by decide
    dsimp only at rendered src present ⊢
    rw [join_eq_flatMap, rendered, usable _ _ present, src, Bool.false_or, List.nil_append]
    exact openTag_of_kept elementName _

end Kept
end SanitizeHtml
