import Hakawi.SanitizeHtml.Idempotence

/-!
# Where the URLs of the output lead

The policy looks at a URL with its references resolved twice, and what is written
has them resolved once. Neither a scheme nor a slash hides behind the second
round: both stand in front of the first reference that it resolves. So what gets
out is an image whose path starts with a slash and a backslash, and nothing else.
-/

namespace SanitizeHtml

open Html

def isSlash (u : UInt16) : Bool := u = unit '/' || u = BACKSLASH

/-- Two slashes of either kind are followed by a host. -/
def hasAuthority : Units → Bool
  | first :: second :: _ => isSlash first && isSlash second
  | _ => false

/-- A URL, as it stands in an attribute, has an allowed scheme or it stays on its origin. -/
def SafeUrl (written : Units) : Prop :=
  let url := normalizeUrl (decodeUrlEntities written)
  match url.scheme with
  | some scheme => scheme ∈ ALLOWED_URL_SCHEMES
  | none => hasAuthority url.cleaned = false

/-- So does every URL of the open tags in a text, repeated attributes included. -/
def SafeUrls (text : Units) : Prop :=
  ∀ tag, .tag tag ∈ lexemes text 0 → tag.closing = false →
    ∀ attr ∈ tag.attributes, attr.name ∈ URL_ATTRIBUTES → SafeUrl attr.value

/-- The path of an image starts with a slash and a backslash. -/
def Backslashed (input : Units) : Prop :=
  ∃ tag, .tag tag ∈ lexemes input 0 ∧ tag.closing = false ∧ tag.name = units "img" ∧
    ∃ attr ∈ tag.attributes, attr.name = units "src" ∧
      [unit '/', BACKSLASH] <+: stripIgnoredUrlChars (decodeUrlEntities (trim attr.value))

section Decoding

/-- What stands before the first reference is not touched by resolving. -/
theorem decodeUrlEntities_append {front : Units} (plain : unit '&' ∉ front) (rest : Units) :
    decodeUrlEntities (front ++ rest) = front ++ decodeUrlEntities rest := by
  induction front with
  | nil => rfl
  | cons u front ih =>
    obtain ⟨other, others⟩ := List.ne_and_not_mem_of_not_mem_cons plain
    have further := ih others
    unfold decodeUrlEntities at further ⊢
    rw [List.cons_append, replaceReferences_cons (Ne.symm other), further, List.cons_append]

/-- A prefix without an ampersand ends before the first one. -/
theorem prefix_of_plain {front before rest : Units} (plain : unit '&' ∉ front)
    (h : front <+: before ++ rest) (starts : ∀ u ∈ rest.head?, u = unit '&') : front <+: before := by
  induction before generalizing front with
  | nil =>
    cases front with
    | nil => exact List.nil_prefix
    | cons u front =>
      obtain ⟨tail, same⟩ := h
      have first : rest.head? = some u := by
        rw [← List.nil_append rest, ← same]
        rfl
      exact absurd List.mem_cons_self (starts u first ▸ plain)
  | cons v before ih =>
    cases front with
    | nil => exact List.nil_prefix
    | cons u front =>
      obtain ⟨rfl, further⟩ := List.cons_prefix_cons.mp h
      exact List.cons_prefix_cons.mpr ⟨rfl, ih (List.not_mem_of_not_mem_cons plain) further⟩

/-- What a URL starts with before its first reference, it starts with once that is resolved. -/
theorem prefix_decoded {front value : Units} (plain : unit '&' ∉ front)
    (h : front <+: stripIgnoredUrlChars value) :
    front <+: stripIgnoredUrlChars (decodeUrlEntities value) := by
  have before : unit '&' ∉ value.takeWhile (· ≠ unit '&') := by
    intro member
    simpa using List.mem_takeWhile_imp member
  have split := List.takeWhile_append_dropWhile (p := (· ≠ unit '&')) (l := value)
  have starts : ∀ u ∈ (stripIgnoredUrlChars (value.dropWhile (· ≠ unit '&'))).head?,
      u = unit '&' := by
    intro u first
    cases behind : value.dropWhile (· ≠ unit '&') with
    | nil =>
      rw [behind] at first
      cases first
    | cons v rest =>
      have here : v = unit '&' := by
        have stops := List.head?_dropWhile_not (· ≠ unit '&') value
        rw [behind] at stops
        simpa using stops
      subst here
      rw [behind] at first
      exact (Option.some.inj first).symm
  rw [← split, stripIgnoredUrlChars, List.filter_append] at h
  rw [← split, decodeUrlEntities_append before, stripIgnoredUrlChars, List.filter_append]
  exact (prefix_of_plain plain h starts).trans (List.prefix_append _ _)

end Decoding

section Schemes

/-- A scheme is a run of its class behind its first unit, up to a colon. -/
theorem scheme_spec {starts : Bool} {inside : UInt16 → Bool} {u : UInt16} {rest scheme : Units}
    (h : (if starts && (rest.drop (rest.takeWhile inside).length).head? = some (unit ':') then
      some (u :: rest.takeWhile inside) else none) = some scheme) :
    starts ∧ ∃ run tail, scheme = u :: run ∧ u :: rest = scheme ++ unit ':' :: tail ∧
      ∀ v ∈ run, inside v := by
  split at h
  · rename_i both
    obtain rfl := Option.some.inj h
    rw [drop_takeWhile, Bool.and_eq_true, decide_eq_true_eq] at both
    obtain ⟨tail, colon⟩ := List.head?_eq_some_iff.mp both.2
    refine ⟨both.1, _, tail, rfl, ?_, fun v member => List.mem_takeWhile_imp member⟩
    rw [← colon, List.cons_append, List.takeWhile_append_dropWhile]
  · cases h

theorem SCHEME_PATTERN_some {text scheme : Units} (h : SCHEME_PATTERN text = some scheme) :
    ∃ rest, text = scheme ++ unit ':' :: rest ∧
      ∀ u ∈ scheme, (isAlphanumeric u || u ∈ units "+.-") = true := by
  cases text with
  | nil => cases h
  | cons u rest =>
    obtain ⟨starts, run, tail, rfl, split, inside⟩ := scheme_spec h
    refine ⟨tail, split, List.forall_mem_cons.mpr ⟨?_, inside⟩⟩
    simp [isAlphanumeric, starts]

theorem not_mem_scheme {inside : UInt16 → Bool} {scheme : Units} {u : UInt16}
    (h : ∀ v ∈ scheme, inside v) (other : inside u = false) : u ∉ scheme := by
  intro member
  have here := h u member
  rw [other] at here
  cases here

/-- Only what a text starts with, up to its first colon, makes its scheme. -/
theorem SCHEME_PATTERN_longer {text longer scheme : Units} (h : SCHEME_PATTERN text = some scheme)
    (starts : scheme ++ [unit ':'] <+: longer) : SCHEME_PATTERN longer = some scheme := by
  cases text with
  | nil => cases h
  | cons u rest =>
    obtain ⟨letter, run, tail, rfl, -, inside⟩ := scheme_spec h
    obtain ⟨behind, rfl⟩ := starts
    have ends : (run ++ unit ':' :: behind).takeWhile
        (fun v => isAlphanumeric v || v ∈ units "+.-") = run := by
      refine takeWhile_append_stop (List.all_eq_true.mpr inside) fun v first => ?_
      obtain rfl := Option.some.inj first
      decide
    have colon : (run ++ unit ':' :: behind).drop run.length = unit ':' :: behind := by simp
    simp [SCHEME_PATTERN, ends, colon, letter]

end Schemes

section Policy
variable {raw elementName : Units}

/-- A URL whose scheme is allowed, or that has none in an image. -/
theorem isUrlAllowed_iff : isUrlAllowed raw elementName ↔
    let url := normalizeUrl (decodeUrlEntities (decodeUrlEntities raw))
    ¬ units "//" <+: url.cleaned ∧ ¬ [BACKSLASH] <+: url.cleaned ∧
      match url.scheme with
      | some scheme => scheme ∈ ALLOWED_URL_SCHEMES
      | none => elementName = units "img" := by
  unfold isUrlAllowed
  dsimp only
  split
  · rename_i refused
    refine iff_of_false (by simp) ?_
    rintro ⟨slashes, backslash, -⟩
    exact (not_or.mpr ⟨slashes, backslash⟩) refused
  · rename_i passes
    obtain ⟨slashes, backslash⟩ := not_or.mp passes
    rw [and_iff_right slashes, and_iff_right backslash]
    cases (normalizeUrl (decodeUrlEntities (decodeUrlEntities raw))).scheme <;> simp

theorem SCHEME_PATTERN_slash {text : Units} (h : [unit '/', BACKSLASH] <+: text) :
    SCHEME_PATTERN text = none ∧ ¬ units "//" <+: text ∧ ¬ [BACKSLASH] <+: text := by
  obtain ⟨rest, rfl⟩ := h
  refine ⟨rfl, ?_, ?_⟩
  · rintro ⟨others, same⟩
    exact absurd (List.cons.inj (List.cons.inj same).2).1 (by decide)
  · rintro ⟨others, same⟩
    exact absurd (List.cons.inj same).1 (by decide)

/-- A path that starts with a slash and a backslash passes as the source of an image. -/
theorem isUrlAllowed_slash (h : [unit '/', BACKSLASH] <+: stripIgnoredUrlChars (decodeUrlEntities raw)) :
    isUrlAllowed raw elementName ↔ elementName = units "img" := by
  obtain ⟨none_, slashes, backslash⟩ := SCHEME_PATTERN_slash (prefix_decoded (by decide) h)
  rw [isUrlAllowed_iff]
  simp only [normalizeUrl, none_, slashes, backslash, Option.map_none, not_false_eq_true, true_and]

theorem hasAuthority_iff {url : Units} : hasAuthority url ↔
    ∃ first second, isSlash first ∧ isSlash second ∧ [first, second] <+: url := by
  constructor
  · intro h
    match url with
    | [] | [_] => cases h
    | first :: second :: rest =>
      obtain ⟨one, two⟩ := Bool.and_eq_true_iff.mp h
      exact ⟨first, second, one, two, rest, rfl⟩
  · rintro ⟨first, second, one, two, rest, rfl⟩
    simp [hasAuthority, one, two]

theorem isSlash_iff {u : UInt16} : isSlash u ↔ u = unit '/' ∨ u = BACKSLASH := by
  simp [isSlash]

/-- Of what the policy has let through, two slashes of either kind are this one kind. -/
theorem hasAuthority_of_allowed (h : isUrlAllowed raw elementName) :
    hasAuthority (stripIgnoredUrlChars (decodeUrlEntities raw)) ↔
      [unit '/', BACKSLASH] <+: stripIgnoredUrlChars (decodeUrlEntities raw) := by
  obtain ⟨slashes, backslash, -⟩ := isUrlAllowed_iff.mp h
  rw [hasAuthority_iff]
  constructor
  · rintro ⟨first, second, one, two, starts⟩
    rcases isSlash_iff.mp one with rfl | rfl
    · rcases isSlash_iff.mp two with rfl | rfl
      · exact absurd (prefix_decoded (by decide) starts) slashes
      · exact starts
    · have alone : [BACKSLASH] <+: stripIgnoredUrlChars (decodeUrlEntities raw) :=
        List.IsPrefix.trans ⟨[second], rfl⟩ starts
      exact absurd (prefix_decoded (by decide) alone) backslash
  · intro starts
    exact ⟨_, _, isSlash_iff.mpr (Or.inl rfl), isSlash_iff.mpr (Or.inr rfl), starts⟩

/-- A URL that the policy lets through is written as a safe one, or it is of that kind. -/
theorem safeUrl_of_allowed (h : isUrlAllowed raw elementName) :
    SafeUrl (escapeAttributeValue (decodeUrlEntities raw)) ↔
      ¬ [unit '/', BACKSLASH] <+: stripIgnoredUrlChars (decodeUrlEntities raw) := by
  have kind := hasAuthority_of_allowed h
  obtain ⟨-, -, allowed⟩ := isUrlAllowed_iff.mp h
  simp only [SafeUrl, decodeUrlEntities_escape, normalizeUrl]
  cases found : SCHEME_PATTERN (stripIgnoredUrlChars (decodeUrlEntities raw)) with
  | none => rw [Option.map_none, ← kind, Bool.not_eq_true]
  | some scheme =>
    obtain ⟨rest, split, ascii⟩ := SCHEME_PATTERN_some found
    have plain : unit '&' ∉ scheme ++ [unit ':'] := by
      intro member
      rcases List.mem_append.mp member with inside | last
      · exact not_mem_scheme ascii (by decide) inside
      · exact absurd last (by decide)
    have starts : scheme ++ [unit ':'] <+: stripIgnoredUrlChars (decodeUrlEntities raw) :=
      ⟨rest, by simp [split]⟩
    simp only [normalizeUrl, SCHEME_PATTERN_longer found (prefix_decoded plain starts),
      Option.map_some] at allowed
    refine iff_of_true allowed fun slash => ?_
    rw [(SCHEME_PATTERN_slash slash).1] at found
    cases found

end Policy

section Output
variable {source before : Units} {position : Nat}

/-- The open tags of what was written are read as they were written. -/
theorem mem_lexemes_written {pieces : List Piece} (allowed : ∀ piece ∈ pieces, Allowed piece)
    (h : source.drop position = escapeText before ++ write (pieces.map Piece.escape))
    {name : Units} {attributes : List Attribute} :
    (∃ stop, .tag ⟨name, false, attributes, stop⟩ ∈ lexemes source position) ↔
      ∃ kept, .openTag name kept ∈ pieces ∧ attributes = kept.map Attribute.escape := by
  have clean := (escapeText_clean before).1
  have prior : ∀ (text : Units) (tag : ParsedTag),
      Lexeme.tag tag ∉ if text = [] then [] else [Lexeme.text text] := by
    intro text tag
    split <;> simp
  induction pieces generalizing position before with
  | nil =>
    have text : source.drop position = escapeText before := by simpa [write] using h
    rw [lexemes_text clean text]
    split <;> simp
  | cons piece rest ih =>
    obtain ⟨first, others⟩ := List.forall_mem_cons.mp allowed
    cases piece with
    | text content =>
      have joined : source.drop position = escapeText (before ++ content) ++
          write (rest.map Piece.escape) := by
        simpa [write, Piece.escape, Piece.write] using h
      refine (ih others joined (escapeText_clean _).1).trans ?_
      simp
    | openTag opened written =>
      have whole : source.drop position = escapeText before ++ (tagText false opened
          (written.map Attribute.escape) ++ write (rest.map Piece.escape)) := by
        simpa [write, Piece.escape, Piece.write, tagText] using h
      obtain ⟨stop, next, behind, read⟩ := lexemes_written clean whole first.1 first.named.legible.2
      have start : source.drop next = escapeText [] ++ write (rest.map Piece.escape) := behind
      have further := ih others start (escapeText_clean _).1
      simp only [read, List.mem_append, List.mem_cons, prior, false_or, exists_or, further,
        or_and_right, Lexeme.tag.injEq, ParsedTag.mk.injEq, Piece.openTag.injEq, true_and]
      refine or_congr_left ?_
      constructor
      · rintro ⟨stop, rfl, rfl, -⟩
        exact ⟨written, ⟨rfl, rfl⟩, rfl⟩
      · rintro ⟨kept, ⟨rfl, rfl⟩, rfl⟩
        exact ⟨_, rfl, rfl, rfl⟩
    | closeTag closed =>
      have whole : source.drop position = escapeText before ++ (tagText true closed [] ++
          write (rest.map Piece.escape)) := by
        simpa [write, Piece.escape, Piece.write, tagText] using h
      obtain ⟨stop, next, behind, read⟩ := lexemes_written clean whole first.1 (by simp)
      have start : source.drop next = escapeText [] ++ write (rest.map Piece.escape) := behind
      have further := ih others start (escapeText_clean _).1
      simp [read, prior, further]

/-- The URLs of the output are those of its pieces. -/
theorem safeUrls_pieces (input : Units) : SafeUrls (sanitizeHtml input) ↔
    ∀ name kept, .openTag name kept ∈ pieces input → ∀ attr ∈ kept, attr.name ∈ URL_ATTRIBUTES →
      SafeUrl (escapeAttributeValue attr.value) := by
  have whole : (sanitizeHtml input).drop 0 =
      escapeText [] ++ write ((pieces input).map Piece.escape) := sanitizeHtml_eq input
  constructor
  · intro safe name kept member attr listed url
    obtain ⟨stop, read⟩ :=
      (mem_lexemes_written (pieces_emitted input).allowed whole).mpr ⟨kept, member, rfl⟩
    have written : attr.escape ∈ kept.map Attribute.escape := List.mem_map_of_mem listed
    exact safe _ read rfl attr.escape written url
  · rintro safe ⟨name, closing, attributes, stop⟩ read rfl written listed url
    obtain ⟨kept, member, rfl⟩ :=
      (mem_lexemes_written (pieces_emitted input).allowed whole).mp ⟨stop, read⟩
    obtain ⟨attr, present, rfl⟩ := List.mem_map.mp listed
    exact safe name kept member attr present url

/-- Only an image has sources, and they are its only URLs. -/
theorem src_of_image {name : Units} (allowed : AllowedAttribute (units "img") name)
    (url : name ∈ URL_ATTRIBUTES) : name = units "src" := by
  obtain ⟨list, found, listed⟩ := allowed
  have only : ∀ name ∈ ["src", "alt", "width", "height"].map units, name ∈ URL_ATTRIBUTES →
      name = units "src" := by decide
  obtain rfl : ["src", "alt", "width", "height"].map units = list := Option.some.inj found
  exact only name listed url

end Output

/-- The URLs of the output are safe exactly if no image of the input has a path that
starts with a slash and a backslash. -/
theorem safeUrls_iff (input : Units) : SafeUrls (sanitizeHtml input) ↔ ¬ Backslashed input := by
  rw [safeUrls_pieces]
  constructor
  · rintro safe ⟨tag, read, opening, image, attr, listed, name, slash⟩
    have nonempty : trim attr.value ≠ [] := by
      intro empty
      rw [empty] at slash
      exact absurd slash (by decide)
    have passes := (isUrlAllowed_slash slash).mpr image
    have source : AllowedAttribute tag.name attr.name ∧ attr.name ∈ URL_ATTRIBUTES := by
      rw [image, name]
      exact ⟨⟨_, rfl, by decide⟩, by decide⟩
    have usable : UsableUrl tag.name attr := ⟨source.1, source.2, nonempty, passes⟩
    have allowed : tag.name ∈ ALLOWED_TAGS := by
      rw [image]
      decide
    have opens : Opens tag := ⟨opening, allowed, fun _ => ⟨attr, listed, name, usable⟩⟩
    have member := mem_pieces.mpr ⟨tag, read, opens_iff.mp opens⟩
    obtain ⟨kept, url⟩ := mem_keptAttributes_url.mpr ⟨attr, listed, usable, rfl⟩
    have written : SafeUrl (escapeAttributeValue (decodeUrlEntities (trim attr.value))) :=
      safe tag.name _ member ⟨attr.name, decodeUrlEntities (trim attr.value)⟩ kept url
    exact (safeUrl_of_allowed passes).mp written slash
  · intro straight name kept member written listed url
    obtain ⟨tag, read, opening, -, keeps⟩ := mem_pieces.mp member
    obtain ⟨rfl, rfl⟩ := Piece.openTag.inj (keptTag_some keeps)
    obtain ⟨attr, present, ⟨allowed, -, -, passes⟩, rfl⟩ :=
      mem_keptAttributes_url.mp ⟨listed, url⟩
    refine (safeUrl_of_allowed passes).mpr fun slash => ?_
    have image := (isUrlAllowed_slash slash).mp passes
    rw [image] at allowed
    exact straight ⟨tag, read, opening, image, attr, present, src_of_image allowed url, slash⟩

/-- An image whose path a browser reads as a host is written as it is. -/
theorem not_safeUrls :
    ¬ SafeUrls (sanitizeHtml (units "<img src=\"/\\evil.example/x.png\">")) := by
  intro safe
  have written : Lexeme.tag ⟨units "img", false,
      [⟨units "src", units "/\\evil.example/x.png"⟩], 31⟩ ∈
        lexemes (sanitizeHtml (units "<img src=\"/\\evil.example/x.png\">")) 0 := by
    decide +kernel
  have here : SafeUrl (units "/\\evil.example/x.png") :=
    safe _ written rfl _ List.mem_cons_self (by decide)
  have relative : (normalizeUrl (decodeUrlEntities (units "/\\evil.example/x.png"))).scheme = none ∧
      hasAuthority (normalizeUrl (decodeUrlEntities (units "/\\evil.example/x.png"))).cleaned := by
    decide
  rw [SafeUrl, relative.1, relative.2] at here
  cases here

end SanitizeHtml
