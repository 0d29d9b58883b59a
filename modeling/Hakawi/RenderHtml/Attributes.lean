import Hakawi.Html.AttributeText

/-!
# What the render layer keeps of a tag

The allowlists, the URL policy and the attributes that are read of an element. An
attribute that is not read cannot be written.
-/

namespace RenderHtml

open Html

def ALLOWED_TAGS : List Units :=
  ["p", "br", "strong", "b", "em", "i", "u", "s", "blockquote", "h1", "h2", "h3", "h4", "h5", "h6",
    "ul", "ol", "li", "a", "img", "hr", "pre", "code", "span", "div", "table", "thead", "tbody",
    "tr", "th", "td", "figure", "figcaption"].map units

def VOID_TAGS : List Units := ["br", "hr", "img"].map units

def CONTENT_DROPPED_TAGS : List Units := ["script", "style"].map units

def MAX_IMG_DIMENSION : Nat := 10000

/-- `/^[0-9]{1,5}(px|em|%)?$/`, and the unit that it captures. -/
def DIMENSION_PATTERN (value : Units) : Option (Option Units) :=
  let digits := value.takeWhile isDigit
  let suffix := value.drop digits.length
  if 1 ≤ digits.length && digits.length ≤ 5 && suffix ∈ ["", "px", "em", "%"].map units then
    some (if suffix = [] then none else some suffix)
  else none

def NAMED_ENTITIES : List (String × String) :=
  [("amp", "&"), ("lt", "<"), ("gt", ">"), ("quot", "\""), ("apos", "'"), ("nbsp", "\u00a0"),
    ("colon", ":"), ("semi", ";"), ("sol", "/"), ("bsol", "\\"), ("tab", "\t"), ("newline", "\n"),
    ("cr", "\r"), ("excl", "!"), ("quest", "?"), ("num", "#"), ("dollar", "$"), ("percnt", "%"),
    ("commat", "@"), ("period", "."), ("comma", ","), ("hyphen", "-"), ("lowbar", "_"),
    ("plus", "+"), ("equals", "="), ("ast", "*"), ("lpar", "("), ("rpar", ")"), ("lsqb", "["),
    ("rsqb", "]"), ("lcub", "\x7b"), ("rcub", "\x7d"), ("lbrace", "\x7b"), ("rbrace", "\x7d"),
    ("verbar", "|"), ("circ", "^"), ("grave", "\x60"), ("tilde", "~"), ("copy", "©"), ("reg", "®"),
    ("trade", "™"), ("hellip", "…"), ("mdash", "—"), ("ndash", "–"), ("lsquo", "‘"),
    ("rsquo", "’"), ("ldquo", "“"), ("rdquo", "”"), ("bull", "•"), ("dagger", "†"), ("deg", "°"),
    ("middot", "·"), ("laquo", "«"), ("raquo", "»"), ("times", "×"), ("divide", "÷"), ("euro", "€"),
    ("pound", "£"), ("yen", "¥"), ("cent", "¢"), ("sect", "§"), ("para", "¶"), ("frac12", "½"),
    ("sup2", "²"), ("sup3", "³")]

/-- The table is an object, so these members of every object are found in it too. They are
functions, and are written out as such. -/
def OBJECT_MEMBERS : List (String × String) :=
  [("constructor", "Object"), ("hasOwnProperty", "hasOwnProperty"),
    ("isPrototypeOf", "isPrototypeOf"), ("propertyIsEnumerable", "propertyIsEnumerable"),
    ("toLocaleString", "toLocaleString"), ("toString", "toString"), ("valueOf", "valueOf")]

/-- `NAMED_ENTITIES[name]` -/
def namedEntity (name : Units) : Option Units :=
  match NAMED_ENTITIES.find? (units ·.1 = name) with
  | some entry => some (units entry.2)
  | none => (OBJECT_MEMBERS.find? (units ·.1 = name)).map fun entry =>
      units "function " ++ units entry.2 ++ units "() \x7b [native code] \x7d"

/-- `/&(#[0-9]+|#x[0-9a-fA-F]+|[a-zA-Z][a-zA-Z0-9]*);/g` -/
def ENTITY_PATTERN : ReferencePattern := ⟨fun u => u = unit 'x', true⟩

def resolveEntity (entity : Units) (_semicolon : Bool) : Option Units :=
  if entity.head? = some (unit '#') then
    let isHex := (entity.drop 1).head? = some (unit 'x') ∨ (entity.drop 1).head? = some (unit 'X')
    let codePoint := if isHex then parseInt (entity.drop 2) 16 else parseInt (entity.drop 1) 10
    some (if codePoint > 0x10ffff then [] else fromCodePoint codePoint)
  else (namedEntity entity).or (namedEntity (lowerCase entity))

/-- Once, as a browser does. -/
def decodeEntities (value : Units) : Units :=
  replaceReferences ENTITY_PATTERN resolveEntity 0 value

def isControlChar (u : UInt16) : Bool := u ≤ 0x20 || (0x7f ≤ u && u ≤ 0x9f)

def stripControlChars (value : Units) : Units := value.filter (!isControlChar ·)

/-- The lower case of one unit, as far as a pattern of ASCII characters can tell: the Kelvin
sign and the dotted capital I are the only other characters with ASCII in theirs. -/
def lowered (u : UInt16) : Units :=
  if 65 ≤ u && u ≤ 90 then [u + 32]
  else if u = 0x212a then [unit 'k']
  else if u = 0x130 then [unit 'i', 0x307]
  else [u]

def toLowerCase (text : Units) : Units := text.flatMap lowered

/-- `/^([a-z][a-z0-9+.\-]*):/` -/
def SCHEME_PATTERN : Units → Option Units
  | [] => none
  | u :: rest =>
    let tail := rest.takeWhile fun v => (97 ≤ v && v ≤ 122) || isDigit v || v ∈ units "+.-"
    if 97 ≤ u && u ≤ 122 && (rest.drop tail.length).head? = some (unit ':') then some (u :: tail)
    else none

/-- A value without a scheme is relative, and safe unless it inherits one. -/
def isSafeUrl (value : Units) (schemeAllowlist : List Units) : Bool :=
  let normalized := stripControlChars value
  if units "//" <+: normalized ∨ [unit '/', BACKSLASH] <+: normalized ∨ [BACKSLASH] <+: normalized
  then false
  else
    match SCHEME_PATTERN (toLowerCase normalized) with
    | none => true
    | some scheme => scheme ∈ schemeAllowlist

def HREF_SCHEMES : List Units := ["http", "https", "mailto"].map units

def IMG_SRC_SCHEMES : List Units := ["https", "http"].map units

/-- `attrs[name]`: a later attribute overwrites an earlier one of its name. -/
def valueOf (attrs : List Attribute) (name : Units) : Option Units :=
  (attrs.reverse.find? (·.name = name)).map (·.value)

def writeAttr (name value : Units) : Units :=
  unit ' ' :: name ++ unit '=' :: DOUBLE_QUOTE :: value ++ [DOUBLE_QUOTE]

/-- The unitless form of a dimension has a range of its own. -/
def isInBounds (value : Units) : Bool :=
  match DIMENSION_PATTERN value with
  | none => false
  | some (some _) => true
  | some none => 1 ≤ parseInt value 10 && parseInt value 10 ≤ MAX_IMG_DIMENSION

def renderDimension (attrs : List Attribute) (dimension : Units) : Units :=
  match valueOf attrs dimension with
  | none => []
  | some raw => if isInBounds (trim raw) then writeAttr dimension (escapeAttributeValue (trim raw))
    else []

/-- `none`: the element is not emitted at all. -/
def renderAttributes (tag : Units) (attrs : List Attribute) : Option Units :=
  if tag = units "a" then
    let href := decodeEntities ((valueOf attrs (units "href")).getD [])
    if 0 < href.length ∧ isSafeUrl href HREF_SCHEMES then
      some (writeAttr (units "href") (escapeAttributeValue href))
    else some []
  else if tag = units "img" then
    let src := decodeEntities ((valueOf attrs (units "src")).getD [])
    if src.length = 0 ∨ !isSafeUrl src IMG_SRC_SCHEMES then none
    else
      some (writeAttr (units "src") (escapeAttributeValue src) ++
        (match valueOf attrs (units "alt") with
          | none => []
          | some alt => writeAttr (units "alt") (escapeAttributeValue (decodeEntities alt))) ++
        renderDimension attrs (units "width") ++ renderDimension attrs (units "height"))
  else some []

def isAttributeNameUnit (u : UInt16) : Bool :=
  !isSpace u && u ∉ DOUBLE_QUOTE :: SINGLE_QUOTE :: units "/=>"

/-- `/([^\s/=>"']+)(?:\s*=\s*(?:"([^"]*)"|'([^']*)'|([^\s>]*)))?/g`. No name that is looked up
has a `k` in it, so a lower case of ASCII characters is enough to find it. -/
def ATTRIBUTE_PATTERN : AttributePattern :=
  ⟨isAttributeNameUnit, isAttributeNameUnit, fun u => !isSpace u && u ≠ unit '>'⟩

def parseAttributes (source : Units) : List Attribute := ATTRIBUTE_PATTERN.readAll 0 source

section Values

theorem valueOf_nil (name : Units) : valueOf [] name = none := rfl

theorem valueOf_cons (attr : Attribute) (rest : List Attribute) (name : Units) :
    valueOf (attr :: rest) name =
      (valueOf rest name).or (if attr.name = name then some attr.value else none) := by
  simp only [valueOf, List.reverse_cons, List.find?_append, Option.map_or]
  congr 1
  by_cases same : attr.name = name
  · simp [same]
  · simp [same]

theorem valueOf_append (first second : List Attribute) (name : Units) :
    valueOf (first ++ second) name = (valueOf second name).or (valueOf first name) := by
  simp only [valueOf, List.reverse_append, List.find?_append, Option.map_or]

theorem valueOf_escape (attrs : List Attribute) (name : Units) :
    valueOf (attrs.map Attribute.escape) name = (valueOf attrs name).map escapeAttributeValue := by
  induction attrs with
  | nil => rfl
  | cons attr rest ih =>
    rw [List.map_cons, valueOf_cons, valueOf_cons, ih, Option.map_or]
    congr 1
    by_cases same : attr.name = name
    · simp [Attribute.escape, same]
    · simp [Attribute.escape, same]

theorem valueOf_mem {attrs : List Attribute} {name value : Units}
    (h : valueOf attrs name = some value) : ⟨name, value⟩ ∈ attrs := by
  obtain ⟨attr, found, rfl⟩ := Option.map_eq_some_iff.mp h
  have same := List.find?_some found
  have member := List.mem_reverse.mp (List.mem_of_find?_eq_some found)
  rw [← of_decide_eq_true same]
  exact member

theorem valueOf_eq_none {attrs : List Attribute} {name : Units} :
    valueOf attrs name = none ↔ ∀ attr ∈ attrs, attr.name ≠ name := by
  simp [valueOf]

/-- With one attribute of each name, the first is the last. -/
theorem firstOf_eq_valueOf {attrs : List Attribute} (distinct : (attrs.map (·.name)).Nodup)
    (name : Units) : firstOf attrs name = valueOf attrs name := by
  induction attrs with
  | nil => rfl
  | cons attr rest ih =>
    obtain ⟨fresh, others⟩ := List.nodup_cons.mp distinct
    rw [firstOf_cons, valueOf_cons, ih others]
    by_cases same : attr.name = name
    · have none_ : valueOf rest name = none := by
        refine valueOf_eq_none.mpr fun other member equal => fresh ?_
        exact List.mem_map.mpr ⟨other, member, equal.trans same.symm⟩
      simp [same, none_]
    · simp [same]

end Values

/-! ### What is left -/

def keptDimension (attrs : List Attribute) (dimension : Units) : List Attribute :=
  match valueOf attrs dimension with
  | none => []
  | some raw => if isInBounds (trim raw) then [⟨dimension, trim raw⟩] else []

/-- The attributes of an element that is emitted, with their content. -/
def keptAttributes (tag : Units) (attrs : List Attribute) : Option (List Attribute) :=
  if tag = units "a" then
    let href := decodeEntities ((valueOf attrs (units "href")).getD [])
    if 0 < href.length ∧ isSafeUrl href HREF_SCHEMES then some [⟨units "href", href⟩] else some []
  else if tag = units "img" then
    let src := decodeEntities ((valueOf attrs (units "src")).getD [])
    if src.length = 0 ∨ !isSafeUrl src IMG_SRC_SCHEMES then none
    else
      some (⟨units "src", src⟩ ::
        ((valueOf attrs (units "alt")).toList.map fun alt => ⟨units "alt", decodeEntities alt⟩) ++
        keptDimension attrs (units "width") ++ keptDimension attrs (units "height"))
  else some []

section Kept
variable {tag : Units} {attrs : List Attribute}

theorem writeAttr_escape (name value : Units) :
    writeAttr name (escapeAttributeValue value) = (Attribute.escape ⟨name, value⟩).write := rfl

theorem renderDimension_eq (dimension : Units) :
    renderDimension attrs dimension =
      ((keptDimension attrs dimension).map Attribute.escape).flatMap Attribute.write := by
  unfold renderDimension keptDimension
  cases valueOf attrs dimension with
  | none => rfl
  | some raw =>
    dsimp only
    split
    · simp [writeAttr_escape]
    · rfl

/-- What is rendered of a tag is what is kept of it, escaped. -/
theorem renderAttributes_eq : renderAttributes tag attrs =
    (keptAttributes tag attrs).map fun kept =>
      (kept.map Attribute.escape).flatMap Attribute.write := by
  unfold renderAttributes keptAttributes
  split
  · dsimp only
    split
    · simp [writeAttr_escape]
    · rfl
  · split
    · dsimp only
      split
      · rfl
      · rw [renderDimension_eq, renderDimension_eq]
        cases valueOf attrs (units "alt") <;> simp [writeAttr_escape]
    · rfl

theorem isInBounds_plain {value : Units} (h : isInBounds value) :
    trim value = value ∧ escapeAttributeValue value = value := by
  have plain : ∀ u ∈ value, isSpace u = false ∧ escapeAttributeUnit u = [u] := by
    refine dimension_plain ?_
    by_contra other
    have unmatched : DIMENSION_PATTERN value = none := by
      rw [DIMENSION_PATTERN, if_neg]
      simp only [Bool.and_eq_true, decide_eq_true_eq]
      exact fun all => other all.2
    simp [isInBounds, unmatched] at h
  constructor
  · exact trim_plain fun u member => (plain u member).1
  · exact escapeAttributeValue_plain fun u member => (plain u member).2

theorem resolvesEscapes : ResolvesEscapes resolveEntity := by
  constructor <;> decide

theorem decodeEntities_escape (value : Units) :
    decodeEntities (escapeAttributeValue value) = value := resolvesEscapes.attributeValue value

theorem keptDimension_cases (attrs : List Attribute) (dimension : Units) :
    keptDimension attrs dimension = [] ∨ ∃ value, isInBounds value ∧
      keptDimension attrs dimension = [⟨dimension, value⟩] := by
  unfold keptDimension
  split
  · exact Or.inl rfl
  · split
    · rename_i raw _ inBounds
      exact Or.inr ⟨trim raw, inBounds, rfl⟩
    · exact Or.inl rfl

theorem keptDimension_again {attrs kept : List Attribute} {dimension : Units}
    (h : (valueOf kept dimension).toList = (keptDimension attrs dimension).map (·.value)) :
    keptDimension (kept.map Attribute.escape) dimension = keptDimension attrs dimension := by
  rw [keptDimension, valueOf_escape]
  rcases keptDimension_cases attrs dimension with absent | ⟨value, inBounds, present⟩
  · rw [absent] at h ⊢
    cases found : valueOf kept dimension with
    | none => rfl
    | some raw => simp [found] at h
  · rw [present] at h ⊢
    cases found : valueOf kept dimension with
    | none => simp [found] at h
    | some raw =>
      obtain rfl : raw = value := by simpa [found] using h
      obtain ⟨trimmed, written⟩ := isInBounds_plain inBounds
      simp [written, trimmed, inBounds]

theorem valueOf_keptDimension {attrs : List Attribute} {dimension name : Units}
    (other : dimension ≠ name) : valueOf (keptDimension attrs dimension) name = none := by
  rcases keptDimension_cases attrs dimension with absent | ⟨value, -, present⟩
  · rw [absent, valueOf_nil]
  · rw [present, valueOf_cons, if_neg other, valueOf_nil, Option.none_or]

theorem valueOf_keptDimension_self (attrs : List Attribute) (dimension : Units) :
    (valueOf (keptDimension attrs dimension) dimension).toList =
      (keptDimension attrs dimension).map (·.value) := by
  rcases keptDimension_cases attrs dimension with absent | ⟨value, -, present⟩
  · rw [absent]
    rfl
  · rw [present, valueOf_cons, if_pos rfl, valueOf_nil, Option.none_or]
    rfl

/-- The attributes of an image: a source, and then at most one of each other name. -/
def imageAttributes (attrs : List Attribute) (src : Units) (alt : Option Units) : List Attribute :=
  ⟨units "src", src⟩ :: (alt.toList.map fun alt => ⟨units "alt", alt⟩) ++
    keptDimension attrs (units "width") ++ keptDimension attrs (units "height")

theorem valueOf_imageAttributes (attrs : List Attribute) (src : Units) (alt : Option Units) :
    valueOf (imageAttributes attrs src alt) (units "src") = some src ∧
      valueOf (imageAttributes attrs src alt) (units "alt") = alt ∧
      valueOf (imageAttributes attrs src alt) (units "width") =
        valueOf (keptDimension attrs (units "width")) (units "width") ∧
      valueOf (imageAttributes attrs src alt) (units "height") =
        valueOf (keptDimension attrs (units "height")) (units "height") := by
  have described : ∀ name, valueOf (alt.toList.map fun alt => ⟨units "alt", alt⟩) name =
      if units "alt" = name then alt else none := by
    intro name
    cases alt with
    | none => simp [valueOf_nil]
    | some alt => simp [valueOf_cons, valueOf_nil]
  simp only [imageAttributes, valueOf_append, valueOf_cons, described]
  refine ⟨?_, ?_, ?_, ?_⟩
  · rw [valueOf_keptDimension (by decide), valueOf_keptDimension (by decide), if_neg (by decide)]
    simp
  · rw [valueOf_keptDimension (by decide), valueOf_keptDimension (by decide),
      if_neg (show units "src" ≠ units "alt" by decide)]
    simp
  · rw [valueOf_keptDimension (by decide), if_neg (by decide), if_neg (by decide)]
    simp
  · rw [@valueOf_keptDimension attrs (units "width") _ (by decide), if_neg (by decide),
      if_neg (by decide)]
    simp

/-- What is kept of an image with a usable source. -/
theorem keptAttributes_image {attrs : List Attribute}
    (usable : ¬ ((decodeEntities ((valueOf attrs (units "src")).getD [])).length = 0 ∨
      !isSafeUrl (decodeEntities ((valueOf attrs (units "src")).getD [])) IMG_SRC_SCHEMES)) :
    keptAttributes (units "img") attrs =
      some (imageAttributes attrs (decodeEntities ((valueOf attrs (units "src")).getD []))
        ((valueOf attrs (units "alt")).map decodeEntities)) := by
  have image : ¬ units "img" = units "a" := by decide
  simp only [keptAttributes, if_neg image, if_true, if_neg usable, imageAttributes]
  cases valueOf attrs (units "alt") <;> rfl

theorem imageAttributes_distinct (attrs : List Attribute) (src : Units) (alt : Option Units) :
    ((imageAttributes attrs src alt).map (·.name)).Nodup := by
  rw [imageAttributes]
  rcases keptDimension_cases attrs (units "width") with wide | ⟨width, -, wide⟩ <;>
  rcases keptDimension_cases attrs (units "height") with high | ⟨height, -, high⟩ <;>
  rw [wide, high] <;> cases alt <;> simp +decide

/-- What was kept once is kept again. -/
theorem keptAttributes_again {kept : List Attribute} (h : keptAttributes tag attrs = some kept) :
    keptAttributes tag (kept.map Attribute.escape) = some kept := by
  have whole := h
  unfold keptAttributes at h
  split at h
  · rename_i anchor
    subst anchor
    dsimp only at h
    split at h
    · rename_i safe
      obtain rfl := Option.some.inj h
      simp only [keptAttributes, valueOf_escape, valueOf_cons, valueOf_nil, Option.none_or, if_true,
        Option.map_some, Option.getD_some, decodeEntities_escape]
      rw [if_pos safe]
    · obtain rfl := Option.some.inj h
      rfl
  · rename_i other
    split at h
    · rename_i image
      subst image
      dsimp only at h
      split at h
      · cases h
      · rename_i usable
        have same := Option.some.inj (whole.symm.trans (keptAttributes_image usable))
        obtain ⟨src, alt, width, height⟩ := valueOf_imageAttributes attrs
          (decodeEntities ((valueOf attrs (units "src")).getD []))
          ((valueOf attrs (units "alt")).map decodeEntities)
        rw [← same] at src alt width height
        have wide := keptDimension_again ((congrArg Option.toList width).trans
          (valueOf_keptDimension_self attrs (units "width")))
        have high := keptDimension_again ((congrArg Option.toList height).trans
          (valueOf_keptDimension_self attrs (units "height")))
        rw [keptAttributes, if_neg other, if_pos rfl]
        simp only [valueOf_escape, src, alt, wide, high, Option.map_some, Option.getD_some,
          decodeEntities_escape, if_neg usable]
        rw [same, imageAttributes]
        cases valueOf attrs (units "alt") <;> simp [decodeEntities_escape]
    · rename_i neither
      obtain rfl := Option.some.inj h
      rw [keptAttributes, if_neg other, if_neg neither]

end Kept
end RenderHtml
