import Mathlib.Data.List.Forall2
import Hakawi.RenderHtml.Rereading
import Hakawi.SanitizeHtml.Urls

/-!
# The render layer over stored content

What the write path has stored goes through the render layer when it is shown. A
link that was stored is always shown. An image is shown if the render layer takes
its source too, and of two attributes of one name the render layer keeps the last
where a browser would have taken the first.
-/

namespace RenderHtml

open Html

section Urls

theorem SCHEME_PATTERN_shown {text scheme : Units} (h : SCHEME_PATTERN text = some scheme) :
    ∃ rest, text = scheme ++ unit ':' :: rest ∧
      ∀ u ∈ scheme, ((97 ≤ u && u ≤ 122) || isDigit u || u ∈ units "+.-") = true := by
  cases text with
  | nil => cases h
  | cons u rest =>
    obtain ⟨starts, run, tail, rfl, split, inside⟩ := SanitizeHtml.scheme_spec h
    refine ⟨tail, split, List.forall_mem_cons.mpr ⟨?_, inside⟩⟩
    simp [starts]

theorem colon_of_lowered {u : UInt16} (h : unit ':' ∈ lowered u) : u = unit ':' := by
  unfold lowered at h
  split at h
  · rename_i capital
    simp only [Bool.and_eq_true, decide_eq_true_eq, UInt16.le_iff_toNat_le] at capital
    have same := congrArg UInt16.toNat (List.mem_singleton.mp h)
    have bounds : (65 : UInt16).toNat = 65 ∧ (90 : UInt16).toNat = 90 ∧ (32 : UInt16).toNat = 32 ∧
      (unit ':').toNat = 58 := by decide
    rw [UInt16.toNat_add] at same
    omega
  · split at h
    · exact absurd h (by decide)
    · split at h
      · exact absurd h (by decide)
      · exact (List.mem_singleton.mp h).symm

/-- The lower case of a string has its first colon where the string has it. -/
theorem toLowerCase_colon {text before rest : Units}
    (h : toLowerCase text = before ++ unit ':' :: rest) (first : unit ':' ∉ before) :
    ∃ front tail, text = front ++ unit ':' :: tail ∧ unit ':' ∉ front ∧
      toLowerCase front = before := by
  have member : unit ':' ∈ toLowerCase text := by simp [h]
  obtain ⟨u, inside, colon⟩ := List.mem_flatMap.mp member
  obtain rfl := colon_of_lowered colon
  obtain ⟨front, tail, rfl, absent⟩ := List.eq_append_cons_of_mem inside
  refine ⟨front, tail, rfl, absent, ?_⟩
  have none_ : unit ':' ∉ toLowerCase front := by
    intro other
    obtain ⟨v, here, colon⟩ := List.mem_flatMap.mp other
    exact absent (colon_of_lowered colon ▸ here)
  have split : toLowerCase (front ++ unit ':' :: tail) =
      toLowerCase front ++ unit ':' :: toLowerCase tail := by
    simp [toLowerCase, show lowered (unit ':') = [unit ':'] from rfl]
  exact split_unit (split.symm.trans h) none_ first

/-- What the policy of the write path has seen of a link that it stores. -/
theorem isUrlAllowed_link {value : Units} (h : SanitizeHtml.isUrlAllowed value (units "a")) :
    let stored := SanitizeHtml.stripIgnoredUrlChars
      (SanitizeHtml.decodeUrlEntities (SanitizeHtml.decodeUrlEntities value))
    ¬ units "//" <+: stored ∧ ¬ [BACKSLASH] <+: stored ∧
      ∃ scheme, SanitizeHtml.SCHEME_PATTERN stored = some scheme ∧
        lowerCase scheme ∈ SanitizeHtml.ALLOWED_URL_SCHEMES := by
  intro stored
  obtain ⟨slashes, backslash, policy⟩ := SanitizeHtml.isUrlAllowed_iff.mp h
  refine ⟨slashes, backslash, ?_⟩
  cases found : SanitizeHtml.SCHEME_PATTERN stored with
  | none =>
    simp only [SanitizeHtml.normalizeUrl, stored, found, Option.map_none] at policy
    exact absurd policy (by decide)
  | some scheme =>
    simp only [SanitizeHtml.normalizeUrl, stored, found, Option.map_some] at policy
    exact ⟨scheme, rfl, policy⟩

/-- The scheme of a link that the write path stores is the one that it has allowed. -/
theorem scheme_of_stored {shown scheme lower : Units}
    (read : SanitizeHtml.SCHEME_PATTERN (SanitizeHtml.stripIgnoredUrlChars
      (SanitizeHtml.decodeUrlEntities shown)) = some scheme)
    (h : SCHEME_PATTERN (toLowerCase (stripControlChars shown)) = some lower) :
    lower = lowerCase scheme := by
  obtain ⟨rest, split, class_⟩ := SCHEME_PATTERN_shown h
  obtain ⟨front, tail, whole, absent, rfl⟩ := toLowerCase_colon split
    (SanitizeHtml.not_mem_scheme class_ (by decide))
  have plain : unit '&' ∉ front ++ [unit ':'] := by
    intro member
    rcases List.mem_append.mp member with inside | last
    · have kept : unit '&' ∈ toLowerCase front :=
        List.mem_flatMap.mpr ⟨unit '&', inside, by decide⟩
      exact SanitizeHtml.not_mem_scheme class_ (by decide) kept
    · exact absurd last (by decide)
  have starts : front ++ [unit ':'] <+: stripControlChars shown := ⟨tail, by simp [whole]⟩
  obtain ⟨behind, same⟩ := SanitizeHtml.prefix_decoded plain starts
  obtain ⟨remaining, stored, ascii⟩ := SanitizeHtml.SCHEME_PATTERN_some read
  have equal : front = scheme := by
    have twice : front ++ unit ':' :: behind = scheme ++ unit ':' :: remaining := by
      rw [← stored, ← same]
      simp
    exact split_unit twice absent (SanitizeHtml.not_mem_scheme ascii (by decide))
  subst equal
  refine (List.flatMap_congr fun u member => ?_).trans List.map_eq_flatMap.symm
  have kelvin : u ≠ 0x212a := by
    rintro rfl
    exact absurd (ascii _ member) (by decide)
  have dotted : u ≠ 0x130 := by
    rintro rfl
    exact absurd (ascii _ member) (by decide)
  simp only [lowered, if_neg kelvin, if_neg dotted]
  split <;> rfl

/-- A link that the write path stores is safe for the render layer. -/
theorem isSafeUrl_of_stored {value : Units}
    (h : SanitizeHtml.isUrlAllowed value (units "a")) :
    isSafeUrl (SanitizeHtml.decodeUrlEntities value) HREF_SCHEMES := by
  obtain ⟨slashes, backslash, scheme, read, allowed⟩ := isUrlAllowed_link h
  have relative : ¬ [unit '/', BACKSLASH] <+: SanitizeHtml.stripIgnoredUrlChars
      (SanitizeHtml.decodeUrlEntities (SanitizeHtml.decodeUrlEntities value)) := by
    rintro ⟨rest, same⟩
    rw [← same] at read
    cases read
  have refused : ¬ (units "//" <+: stripControlChars (SanitizeHtml.decodeUrlEntities value) ∨
      [unit '/', BACKSLASH] <+: stripControlChars (SanitizeHtml.decodeUrlEntities value) ∨
      [BACKSLASH] <+: stripControlChars (SanitizeHtml.decodeUrlEntities value)) := by
    rintro (starts | starts | starts)
    · exact slashes (SanitizeHtml.prefix_decoded (by decide) starts)
    · exact relative (SanitizeHtml.prefix_decoded (by decide) starts)
    · exact backslash (SanitizeHtml.prefix_decoded (by decide) starts)
  simp only [isSafeUrl, if_neg refused]
  split
  · rfl
  · rename_i lower found
    rw [scheme_of_stored read found, decide_eq_true_eq]
    exact allowed

end Urls

/-- What the render layer takes of a value that the write path has stored. -/
def displays (name value : Units) : Bool :=
  if name = units "src" then isSafeUrl value IMG_SRC_SCHEMES
  else if name = units "width" ∨ name = units "height" then isInBounds value
  else true

/-- The first attribute of each name, which a browser takes, and the last, which the render
layer takes, have the same value, and the render layer does take it. -/
def Displayed (kept : List Attribute) : Prop :=
  ∀ name first, firstOf kept name = some first → ∃ last, valueOf kept name = some last ∧
    displays name last ∧ last.map Tokenizer.shown = first.map Tokenizer.shown

section Stored
variable {elementName : Units} {attributes : List Attribute}

/-- A dimension that is stored has the shape of one. -/
theorem dimension_stored {name value : Units} (dimension : name = units "width" ∨ name = units "height")
    (h : ⟨name, value⟩ ∈ SanitizeHtml.keptAttributes elementName attributes) :
    trim value = value ∧ escapeAttributeValue value = value := by
  have plain : SanitizeHtml.DIMENSION_PATTERN value := by
    unfold SanitizeHtml.keptAttributes at h
    cases found : SanitizeHtml.ALLOWED_ATTRIBUTES.lookup elementName with
    | none => simp [found] at h
    | some allowed =>
      simp only [found] at h
      obtain ⟨attr, present, keeps⟩ := List.mem_filterMap.mp h
      obtain ⟨same, listed⟩ := SanitizeHtml.keptAttribute_name keeps
      have other : attr.name ∉ SanitizeHtml.URL_ATTRIBUTES := by
        rw [← same]
        have apart : units "width" ∉ SanitizeHtml.URL_ATTRIBUTES ∧
            units "height" ∉ SanitizeHtml.URL_ATTRIBUTES := by decide
        rcases dimension with rfl | rfl
        · exact apart.1
        · exact apart.2
      rw [SanitizeHtml.keptAttribute_listed listed
        (SanitizeHtml.AllowedAttribute.name ⟨allowed, found, listed⟩), if_neg other,
        if_pos (same ▸ dimension)] at keeps
      split at keeps
      · cases keeps
      · rename_i matches_
        obtain ⟨-, rfl⟩ := Attribute.mk.inj (Option.some.inj keeps)
        simpa using matches_
  have each := SanitizeHtml.DIMENSION_PATTERN_plain plain
  constructor
  · exact trim_plain fun u member => (each u member).1
  · exact escapeAttributeValue_plain fun u member => (each u member).2

/-- A URL that is stored has passed the policy, and there is something of it. -/
theorem url_stored {name value : Units} (url : name ∈ SanitizeHtml.URL_ATTRIBUTES)
    (h : ⟨name, value⟩ ∈ SanitizeHtml.keptAttributes elementName attributes) :
    value ≠ [] ∧ ∃ raw, SanitizeHtml.isUrlAllowed raw elementName ∧
      value = SanitizeHtml.decodeUrlEntities raw := by
  obtain ⟨attr, -, ⟨-, -, nonempty, passes⟩, same⟩ :=
    SanitizeHtml.mem_keptAttributes_url.mp ⟨h, url⟩
  obtain ⟨-, rfl⟩ := Attribute.mk.inj same
  exact ⟨SanitizeHtml.decodeUrlEntities_ne_nil nonempty, _, passes, rfl⟩

theorem keptDimension_stored {kept : List Attribute} {dimension : Units}
    (plain : ∀ value, valueOf kept dimension = some value →
      trim value = value ∧ escapeAttributeValue value = value) :
    valueOf (keptDimension (kept.map Attribute.escape) dimension) dimension =
      (valueOf kept dimension).filter isInBounds := by
  rw [keptDimension, valueOf_escape]
  cases found : valueOf kept dimension with
  | none => rfl
  | some value =>
    obtain ⟨trimmed, written⟩ := plain value found
    simp only [Option.map_some, written, trimmed]
    by_cases inBounds : isInBounds value
    · simp [inBounds, valueOf_cons, valueOf_nil, Option.filter]
    · simp [inBounds, valueOf_nil, Option.filter]

/-- What the render layer makes of a stored image. -/
theorem again_image {kept : List Attribute} {src : Units}
    (found : valueOf kept (units "src") = some src) (nonempty : src ≠ [])
    (names : ∀ attr ∈ kept, attr.name ∈ ["src", "alt", "width", "height"].map units)
    (plain : ∀ name value, name = units "width" ∨ name = units "height" →
      valueOf kept name = some value → trim value = value ∧ escapeAttributeValue value = value) :
    if displays (units "src") src then
      ∃ shown, again (.openTag (units "img") kept) = some (.openTag (units "img") shown) ∧
        ∀ name, firstOf shown name = (valueOf kept name).filter (displays name)
    else again (.openTag (units "img") kept) = none := by
  have source : decodeEntities ((valueOf (kept.map Attribute.escape) (units "src")).getD []) = src := by
    rw [valueOf_escape, found, Option.map_some, Option.getD_some, decodeEntities_escape]
  have decides : displays (units "src") src = isSafeUrl src IMG_SRC_SCHEMES := rfl
  rw [decides]
  by_cases safe : isSafeUrl src IMG_SRC_SCHEMES
  · rw [if_pos safe]
    have usable : ¬ (src.length = 0 ∨ !isSafeUrl src IMG_SRC_SCHEMES) := by simp [nonempty, safe]
    rw [← source] at usable
    have image := keptAttributes_image usable
    rw [source] at image
    refine ⟨_, by rw [again, image, Option.map_some], fun name => ?_⟩
    rw [firstOf_eq_valueOf (imageAttributes_distinct _ _ _)]
    obtain ⟨first, alt, width, height⟩ := valueOf_imageAttributes (kept.map Attribute.escape) src
      ((valueOf (kept.map Attribute.escape) (units "alt")).map decodeEntities)
    by_cases listed : name ∈ ["src", "alt", "width", "height"].map units
    · simp only [List.map_cons, List.map_nil, List.mem_cons, List.not_mem_nil, or_false] at listed
      rcases listed with rfl | rfl | rfl | rfl
      · rw [first, found]
        simp [Option.filter, decides, safe]
      · rw [alt, valueOf_escape]
        cases valueOf kept (units "alt") with
        | none => rfl
        | some value => simp [decodeEntities_escape, Option.filter, show displays (units "alt") value =
            true from rfl]
      · rw [width, keptDimension_stored fun value => plain _ value (Or.inl rfl)]
        rfl
      · rw [height, keptDimension_stored fun value => plain _ value (Or.inr rfl)]
        rfl
    · have unread : valueOf kept name = none := by
        refine valueOf_eq_none.mpr fun attr member same => listed ?_
        exact same ▸ names attr member
      have unshown : valueOf (imageAttributes (kept.map Attribute.escape) src
          ((valueOf (kept.map Attribute.escape) (units "alt")).map decodeEntities)) name = none := by
        refine valueOf_eq_none.mpr fun attr member same => listed ?_
        rcases keptAttributes_allowed image attr member with ⟨anchor, -⟩ | ⟨-, inside⟩
        · exact absurd anchor (by decide)
        · exact same ▸ inside
      rw [unread, unshown]
      rfl
  · rw [if_neg safe]
    have unusable : src.length = 0 ∨ !isSafeUrl src IMG_SRC_SCHEMES := Or.inr (by simpa using safe)
    have other : ¬ units "img" = units "a" := by decide
    simp only [again, keptAttributes, if_neg other, if_true, source, if_pos unusable, Option.map_none]

/-- What the render layer makes of a stored link. -/
theorem again_link {kept : List Attribute}
    (names : ∀ attr ∈ kept, attr.name = units "href")
    (safe : ∀ href, valueOf kept (units "href") = some href →
      href ≠ [] ∧ isSafeUrl href HREF_SCHEMES) :
    ∃ shown, again (.openTag (units "a") kept) = some (.openTag (units "a") shown) ∧
      ∀ name, firstOf shown name = (valueOf kept name).filter (displays name) := by
  have unread : ∀ name, name ≠ units "href" → valueOf kept name = none := by
    intro name other
    exact valueOf_eq_none.mpr fun attr member same => other (same.symm.trans (names attr member))
  cases found : valueOf kept (units "href") with
  | none =>
    refine ⟨[], by simp [again, keptAttributes, valueOf_escape, found, decodeEntities,
      replaceReferences], fun name => ?_⟩
    by_cases same : name = units "href"
    · rw [same, found]
      rfl
    · rw [unread name same]
      rfl
  | some href =>
    obtain ⟨nonempty, passes⟩ := safe href found
    refine ⟨[⟨units "href", href⟩], ?_, fun name => ?_⟩
    · have positive := List.length_pos_iff.mpr nonempty
      simp [again, keptAttributes, valueOf_escape, found, decodeEntities_escape, positive, passes]
    · rw [firstOf_cons]
      by_cases same : units "href" = name
      · subst same
        rw [found, if_pos rfl]
        rfl
      · rw [if_neg same, unread name (Ne.symm same)]
        rfl

/-- A stored tag is shown with the last attribute of each name, as far as it is taken. An
image whose source is not taken is not shown. -/
theorem again_stored {kept : List Attribute}
    (h : SanitizeHtml.keptTag elementName attributes = some (.openTag elementName kept)) :
    (∃ shown, again (.openTag elementName kept) = some (.openTag elementName shown) ∧
      ∀ name, firstOf shown name = (valueOf kept name).filter (displays name)) ∨
    (again (.openTag elementName kept) = none ∧ ∃ src, valueOf kept (units "src") = some src ∧
      displays (units "src") src = false) := by
  have same : kept = SanitizeHtml.keptAttributes elementName attributes := by
    simpa using SanitizeHtml.keptTag_some h
  have allowed : ∀ attr ∈ kept, SanitizeHtml.AllowedAttribute elementName attr.name := by
    intro attr member
    rw [same] at member
    exact SanitizeHtml.keptAttributes_allowed member
  by_cases anchor : elementName = units "a"
  · subst anchor
    refine Or.inl (again_link (fun attr member => ?_) fun href found => ?_)
    · obtain ⟨listed, lookup, inside⟩ := allowed attr member
      have only : SanitizeHtml.ALLOWED_ATTRIBUTES.lookup (units "a") = some [units "href"] := by
        decide
      rw [only, Option.some.injEq] at lookup
      subst lookup
      exact List.mem_singleton.mp inside
    · have stored := valueOf_mem found
      rw [same] at stored
      obtain ⟨nonempty, raw, passes, rfl⟩ := url_stored (by decide) stored
      exact ⟨nonempty, isSafeUrl_of_stored passes⟩
  · by_cases image : elementName = units "img"
    · subst image
      obtain ⟨src, found⟩ : ∃ src, valueOf kept (units "src") = some src := by
        by_contra without
        have none_ := Option.eq_none_iff_forall_not_mem.mpr fun src found => without ⟨src, found⟩
        have bare : ∀ attr ∈ SanitizeHtml.keptAttributes (units "img") attributes,
            attr.name ≠ units "src" := by
          rw [← same]
          exact valueOf_eq_none.mp none_
        rw [SanitizeHtml.keptTag, if_pos ⟨rfl, bare⟩] at h
        cases h
      have stored := valueOf_mem found
      rw [same] at stored
      have names : ∀ attr ∈ kept, attr.name ∈ ["src", "alt", "width", "height"].map units := by
        intro attr member
        obtain ⟨listed, lookup, inside⟩ := allowed attr member
        have only : SanitizeHtml.ALLOWED_ATTRIBUTES.lookup (units "img") =
            some (["src", "alt", "width", "height"].map units) := by decide
        rw [only, Option.some.injEq] at lookup
        subst lookup
        exact inside
      have shown := again_image found (url_stored (by decide) stored).1 names
        fun name value dimension here => dimension_stored dimension (same ▸ valueOf_mem here)
      by_cases takes : displays (units "src") src
      · rw [if_pos takes] at shown
        exact Or.inl shown
      · rw [if_neg takes] at shown
        exact Or.inr ⟨shown, src, found, by simpa using takes⟩
    · have none_ : SanitizeHtml.ALLOWED_ATTRIBUTES.lookup elementName = none := by
        simp [SanitizeHtml.ALLOWED_ATTRIBUTES, List.lookup_cons, beq_false_of_ne anchor,
          beq_false_of_ne image]
      have empty : kept = [] := by rw [same, SanitizeHtml.keptAttributes, none_]
      subst empty
      exact Or.inl ⟨[], by simp [again, keptAttributes, anchor, image], fun name => rfl⟩

end Stored

/-- The element is still there, and so are its attributes with the values that their
references resolve to. Text is the same as it was written. -/
def Keeps : HtmlToken → HtmlToken → Prop
  | .character u, .character v => u = v
  | .endTag name, .endTag other => name = other
  | .startTag name attributes _, .startTag other others _ =>
    name = other ∧ ∀ attr ∈ attributes, ∃ shown ∈ others, shown.name = attr.name ∧
      decodeEntities shown.value = decodeEntities attr.value
  | _, _ => False

/-- All that was stored is still there when it is shown. -/
def ShownAsStored (stored : Units) : Prop :=
  ∃ before after, tokenize stored = some before ∧ tokenize (sanitizeHtml stored) = some after ∧
    List.Forall₂ Keeps before after

section Tokens

theorem keeps_attributes {kept shown : List Attribute} :
    (∀ attr ∈ Piece.firstAttributes (kept.map Attribute.escape),
      ∃ other ∈ Piece.firstAttributes (shown.map Attribute.escape), other.name = attr.name ∧
        decodeEntities other.value = decodeEntities attr.value) ↔
    ∀ name first, firstOf kept name = some first → ∃ last, firstOf shown name = some last ∧
      last.map Tokenizer.shown = first.map Tokenizer.shown := by
  have decoded : ∀ value : Units, decodeEntities ((escapeAttributeValue value).map Tokenizer.shown) =
      value.map Tokenizer.shown := by
    intro value
    rw [escapeAttributeValue_shown, decodeEntities_escape]
  simp only [Piece.mem_firstAttributes, firstOf_escape, Option.map_eq_some_iff]
  constructor
  · intro h name first found
    obtain ⟨other, ⟨-, ⟨last, here, rfl⟩, value⟩, same, equal⟩ :=
      h ⟨name, (escapeAttributeValue first).map Tokenizer.shown⟩ ⟨_, ⟨first, found, rfl⟩, rfl⟩
    rw [value, decoded, decoded] at equal
    rw [show other.name = name from same] at here
    exact ⟨last, here, equal⟩
  · rintro h ⟨name, written⟩ ⟨-, ⟨first, found, rfl⟩, rfl⟩
    obtain ⟨last, here, equal⟩ := h name first found
    refine ⟨⟨name, (escapeAttributeValue last).map Tokenizer.shown⟩,
      ⟨_, ⟨last, here, rfl⟩, rfl⟩, rfl, ?_⟩
    rw [decoded, decoded, equal]

/-- A stored tag is shown as it is if and only if its attributes are displayed. -/
theorem keeps_openTag {elementName : Units} {attributes kept : List Attribute}
    (h : SanitizeHtml.keptTag elementName attributes = some (.openTag elementName kept)) :
    (∃ shown, again (.openTag elementName kept) = some (.openTag elementName shown) ∧
      Keeps (.startTag elementName (Piece.firstAttributes (kept.map Attribute.escape)) false)
        (.startTag elementName (Piece.firstAttributes (shown.map Attribute.escape)) false)) ↔
      Displayed kept := by
  rcases again_stored h with ⟨shown, reads, values⟩ | ⟨dropped, src, found, refused⟩
  · have here : (∃ other, again (.openTag elementName kept) = some (.openTag elementName other) ∧
        Keeps (.startTag elementName (Piece.firstAttributes (kept.map Attribute.escape)) false)
          (.startTag elementName (Piece.firstAttributes (other.map Attribute.escape)) false)) ↔
        ∀ attr ∈ Piece.firstAttributes (kept.map Attribute.escape),
          ∃ other ∈ Piece.firstAttributes (shown.map Attribute.escape), other.name = attr.name ∧
            decodeEntities other.value = decodeEntities attr.value := by
      constructor
      · rintro ⟨other, same, -, keeps⟩
        rw [reads] at same
        obtain ⟨-, rfl⟩ := Piece.openTag.inj (Option.some.inj same)
        exact keeps
      · exact fun keeps => ⟨shown, reads, rfl, keeps⟩
    rw [here, keeps_attributes]
    simp only [Displayed, values, Option.filter_eq_some_iff, and_assoc]
  · constructor
    · rintro ⟨shown, same, -⟩
      rw [dropped] at same
      cases same
    · intro displayed
      exfalso
      cases first : firstOf kept (units "src") with
      | none =>
        have bare : ∀ attr ∈ kept, attr.name ≠ units "src" := by
          simpa [firstOf] using first
        exact bare _ (valueOf_mem found) rfl
      | some value =>
        obtain ⟨last, same, takes, -⟩ := displayed _ _ first
        rw [found, Option.some.injEq] at same
        subst same
        rw [refused] at takes
        cases takes

theorem forall₂_characters {written : Units} {before after : List HtmlToken} :
    List.Forall₂ Keeps (written.map .character ++ before) (written.map .character ++ after) ↔
      List.Forall₂ Keeps before after := by
  induction written with
  | nil => rfl
  | cons u rest ih => simp [Keeps, ih]

theorem length_tokens_again (pieces : List Piece) :
    (((pieces.filterMap again).map Piece.escape).flatMap Piece.tokens).length ≤
      ((pieces.map Piece.escape).flatMap Piece.tokens).length := by
  induction pieces with
  | nil => exact le_refl _
  | cons piece rest ih =>
    cases piece with
    | text content => simpa [again, Piece.escape, Piece.tokens] using ih
    | closeTag name => simpa [again, Piece.escape, Piece.tokens] using ih
    | openTag name attributes =>
      cases kept : keptAttributes name (attributes.map Attribute.escape) with
      | none =>
        simp only [List.filterMap_cons, again, kept, Option.map_none, List.map_cons,
          List.flatMap_cons, List.length_append]
        omega
      | some shown =>
        simp only [List.filterMap_cons, again, kept, Option.map_some, List.map_cons,
          List.flatMap_cons, List.length_append]
        simpa [Piece.escape, Piece.tokens] using ih

/-- The tokens agree if and only if those of every tag do. -/
theorem forall₂_tokens {pieces : List Piece} :
    List.Forall₂ Keeps ((pieces.map Piece.escape).flatMap Piece.tokens)
        (((pieces.filterMap again).map Piece.escape).flatMap Piece.tokens) ↔
      ∀ name attributes, .openTag name attributes ∈ pieces →
        ∃ shown, again (.openTag name attributes) = some (.openTag name shown) ∧
          Keeps (.startTag name (Piece.firstAttributes (attributes.map Attribute.escape)) false)
            (.startTag name (Piece.firstAttributes (shown.map Attribute.escape)) false) := by
  induction pieces with
  | nil => simp
  | cons piece rest ih =>
    cases piece with
    | text content => simpa [again, Piece.escape, Piece.tokens, forall₂_characters] using ih
    | closeTag name => simpa [again, Piece.escape, Piece.tokens, Keeps] using ih
    | openTag name attributes =>
      cases kept : keptAttributes name (attributes.map Attribute.escape) with
      | none =>
        have dropped : again (.openTag name attributes) = none := by rw [again, kept, Option.map_none]
        constructor
        · intro same
          have lengths := same.length_eq
          have fewer := length_tokens_again rest
          simp only [List.filterMap_cons, dropped, List.map_cons, List.flatMap_cons,
            List.length_append] at lengths
          have one : (Piece.openTag name attributes).escape.tokens.length = 1 := rfl
          omega
        · intro all
          obtain ⟨shown, same, -⟩ := all name attributes List.mem_cons_self
          rw [dropped] at same
          cases same
      | some shown =>
        have reads : again (.openTag name attributes) = some (.openTag name shown) := by
          rw [again, kept, Option.map_some]
        have tokens : List.Forall₂ Keeps
            (((Piece.openTag name attributes :: rest).map Piece.escape).flatMap Piece.tokens)
            ((((Piece.openTag name attributes :: rest).filterMap again).map Piece.escape).flatMap
              Piece.tokens) ↔
            Keeps (.startTag name (Piece.firstAttributes (attributes.map Attribute.escape)) false)
              (.startTag name (Piece.firstAttributes (shown.map Attribute.escape)) false) ∧
            List.Forall₂ Keeps ((rest.map Piece.escape).flatMap Piece.tokens)
              (((rest.filterMap again).map Piece.escape).flatMap Piece.tokens) := by
          rw [List.filterMap_cons, reads]
          exact List.forall₂_cons
        rw [tokens, ih]
        constructor
        · rintro ⟨first, others⟩ other listed member
          rcases List.mem_cons.mp member with same | inside
          · obtain ⟨rfl, rfl⟩ := Piece.openTag.inj same
            exact ⟨shown, reads, first⟩
          · exact others other listed inside
        · intro all
          refine ⟨?_, fun other listed inside => all other listed (List.mem_cons_of_mem _ inside)⟩
          obtain ⟨found, same, keeps⟩ := all name attributes List.mem_cons_self
          rw [reads] at same
          obtain ⟨-, rfl⟩ := Piece.openTag.inj (Option.some.inj same)
          exact keeps

end Tokens

/-- All tags that the write path stores are displayed. -/
def Displayable (input : Units) : Prop :=
  ∀ tag, .tag tag ∈ SanitizeHtml.lexemes input 0 → SanitizeHtml.Opens tag →
    Displayed (SanitizeHtml.keptAttributes tag.name tag.attributes)

theorem readable_of_stored {piece : Piece} (h : SanitizeHtml.Allowed piece) : Readable piece := by
  cases piece with
  | text content => trivial
  | openTag name attributes => exact ⟨h.1, h.named.2⟩
  | closeTag name => exact h

theorem legible_again {pieces : List Piece} (readable : ∀ piece ∈ pieces, Readable piece)
    {written : Piece} (member : written ∈ (pieces.filterMap again).map Piece.escape) :
    written.Legible := by
  obtain ⟨shown, kept, rfl⟩ := List.mem_map.mp member
  obtain ⟨piece, present, reads⟩ := List.mem_filterMap.mp kept
  have here := readable piece present
  refine Piece.Named.legible ?_
  cases piece with
  | text content =>
    obtain rfl := Option.some.inj reads
    trivial
  | closeTag name =>
    obtain rfl := Option.some.inj reads
    exact isName_of_allowed here.1
  | openTag name attributes =>
    obtain ⟨attrs, keeps, rfl⟩ := Option.map_eq_some_iff.mp reads
    exact ⟨isName_of_allowed here.1, fun attr listed => (keptAttributes_allowed keeps attr listed).name⟩

/-- What the write path has stored is shown as it is if and only if its tags are displayed. -/
theorem shownAsStored_iff (input : Units) :
    ShownAsStored (SanitizeHtml.sanitizeHtml input) ↔ Displayable input := by
  have emitted := SanitizeHtml.pieces_emitted input
  have readable : ∀ piece ∈ SanitizeHtml.pieces input, Readable piece :=
    fun piece member => readable_of_stored (emitted.allowed piece member)
  have shown : sanitizeHtml (SanitizeHtml.sanitizeHtml input) =
      write (((SanitizeHtml.pieces input).filterMap again).map Piece.escape) := by
    rw [SanitizeHtml.sanitizeHtml_eq]
    exact sanitizeHtml_written readable emitted.nested
  have after := tokenize_write fun piece member => legible_again readable member
  rw [← shown] at after
  have tokens : ShownAsStored (SanitizeHtml.sanitizeHtml input) ↔
      List.Forall₂ Keeps (((SanitizeHtml.pieces input).map Piece.escape).flatMap Piece.tokens)
        ((((SanitizeHtml.pieces input).filterMap again).map Piece.escape).flatMap Piece.tokens) := by
    rw [ShownAsStored, SanitizeHtml.tokenize_sanitizeHtml, after]
    simp
  rw [tokens, forall₂_tokens]
  constructor
  · intro all tag present opens
    have stored := SanitizeHtml.opens_iff.mp opens
    have member := SanitizeHtml.mem_pieces.mpr ⟨tag, present, stored⟩
    exact (keeps_openTag stored.2.2).mp (all _ _ member)
  · intro displayable name attributes member
    obtain ⟨tag, present, opening, allowed, keeps⟩ := SanitizeHtml.mem_pieces.mp member
    obtain ⟨rfl, rfl⟩ := Piece.openTag.inj (SanitizeHtml.keptTag_some keeps)
    have opens := SanitizeHtml.opens_iff.mpr ⟨opening, allowed, keeps⟩
    exact (keeps_openTag keeps).mpr (displayable tag present opens)

/-- An image whose source starts with a slash and a backslash is stored, and is not shown. -/
theorem not_shownAsStored :
    ¬ ShownAsStored (SanitizeHtml.sanitizeHtml (units "<img src=\"/\\evil.example/x.png\">")) := by
  have stored : (tokenize (SanitizeHtml.sanitizeHtml
      (units "<img src=\"/\\evil.example/x.png\">"))).map List.length = some 1 := by
    decide +kernel
  have shown : (tokenize (sanitizeHtml (SanitizeHtml.sanitizeHtml
      (units "<img src=\"/\\evil.example/x.png\">")))).map List.length = some 0 := by
    decide +kernel
  rintro ⟨before, after, first, second, keeps⟩
  have lengths := keeps.length_eq
  rw [first] at stored
  rw [second] at shown
  simp only [Option.map_some, Option.some.injEq] at stored shown
  omega

end RenderHtml
