import Hakawi.Html.Units

/-!
# Character references and escapes

A program resolves references by replacing every match of a pattern, from left
to right, by what it makes of it. Escaping writes the units that have a meaning
of their own as named references, so any program that resolves those names reads
the escaped string back.
-/

namespace Html

/-- How a program spells the references it looks for. -/
structure ReferencePattern where
  hexMark : UInt16 → Bool
  needsSemicolon : Bool

def readNumber (hexMark : UInt16 → Bool) : Units → Option Units
  | [] => none
  | u :: rest =>
    if isDigit u then some (u :: rest.takeWhile isDigit)
    else if hexMark u && !(rest.takeWhile isHexDigit).isEmpty then
      some (u :: rest.takeWhile isHexDigit)
    else none

/-- `#[0-9]+`, `#x[0-9a-fA-F]+` or `[a-zA-Z][a-zA-Z0-9]*` -/
def readReference (hexMark : UInt16 → Bool) : Units → Option Units
  | [] => none
  | u :: rest =>
    if u = unit '#' then (readNumber hexMark rest).map (u :: ·)
    else if isLetter u then some (u :: rest.takeWhile isAlphanumeric)
    else none

/-- The reference after an ampersand, and whether a semicolon ends it. -/
def ReferencePattern.read (pattern : ReferencePattern) (rest : Units) : Option (Units × Bool) :=
  match readReference pattern.hexMark rest with
  | none => none
  | some reference =>
    let semicolon := (rest.drop reference.length).head? == some (unit ';')
    if pattern.needsSemicolon && !semicolon then none else some (reference, semicolon)

/-- The match itself, as it was written. -/
def writtenReference (reference : Units) (semicolon : Bool) : Units :=
  unit '&' :: reference ++ if semicolon then [unit ';'] else []

/-- Replaces every match by what it resolves to, or by itself. The first units may
belong to a match that is already replaced, and are skipped. -/
def replaceReferences (pattern : ReferencePattern) (resolve : Units → Bool → Option Units) :
    Nat → Units → Units
  | _, [] => []
  | skip + 1, _ :: rest => replaceReferences pattern resolve skip rest
  | 0, u :: rest =>
    if u = unit '&' then
      match pattern.read rest with
      | some (reference, semicolon) =>
        (resolve reference semicolon).getD (writtenReference reference semicolon) ++
          replaceReferences pattern resolve (reference.length + semicolon.toNat) rest
      | none => u :: replaceReferences pattern resolve 0 rest
    else u :: replaceReferences pattern resolve 0 rest

def digitValue (u : UInt16) : Nat :=
  if isDigit u then u.toNat - 48 else if u ≤ 70 then u.toNat - 55 else u.toNat - 87

/-- `Number.parseInt`, of a string of digits. -/
def parseInt (digits : Units) (radix : Nat) : Nat :=
  digits.foldl (fun number digit => number * radix + digitValue digit) 0

/-- `text.replace(/u/g, replacement)` -/
def replaceAll (u : UInt16) (replacement text : Units) : Units :=
  text.flatMap fun v => if v = u then replacement else [v]

/-- Escapes what opens a tag or a reference. -/
def escapeText (value : Units) : Units :=
  replaceAll (unit '>') (units "&gt;") (replaceAll (unit '<') (units "&lt;")
    (replaceAll (unit '&') (units "&amp;") value))

/-- Escapes a value that will sit inside a double-quoted attribute. -/
def escapeAttributeValue (value : Units) : Units :=
  replaceAll (unit '>') (units "&gt;") (replaceAll (unit '<') (units "&lt;")
    (replaceAll DOUBLE_QUOTE (units "&quot;") (replaceAll (unit '&') (units "&amp;") value)))

section Escapes

/-- What one unit of text is escaped to. -/
def escapeTextUnit (u : UInt16) : Units :=
  if u = unit '&' then units "&amp;" else if u = unit '<' then units "&lt;"
  else if u = unit '>' then units "&gt;" else [u]

/-- What one unit of an attribute value is escaped to. -/
def escapeAttributeUnit (u : UInt16) : Units :=
  if u = DOUBLE_QUOTE then units "&quot;" else escapeTextUnit u

theorem escapeText_eq (value : Units) : escapeText value = value.flatMap escapeTextUnit := by
  simp only [escapeText, replaceAll, List.flatMap_assoc]
  congr 1
  funext u
  by_cases amp : u = unit '&'
  · subst amp
    rfl
  · by_cases lt : u = unit '<'
    · subst lt
      rfl
    · simp [escapeTextUnit, amp, lt]

theorem escapeAttributeValue_eq (value : Units) :
    escapeAttributeValue value = value.flatMap escapeAttributeUnit := by
  simp only [escapeAttributeValue, replaceAll, List.flatMap_assoc]
  congr 1
  funext u
  by_cases amp : u = unit '&'
  · subst amp
    rfl
  · by_cases quote : u = DOUBLE_QUOTE
    · subst quote
      rfl
    · by_cases lt : u = unit '<'
      · subst lt
        rfl
      · simp [escapeAttributeUnit, escapeTextUnit, amp, quote, lt]

@[simp] theorem escapeText_append (a b : Units) :
    escapeText (a ++ b) = escapeText a ++ escapeText b := by
  simp [escapeText_eq]

theorem escapeTextUnit_clean (u : UInt16) :
    unit '<' ∉ escapeTextUnit u ∧ unit '>' ∉ escapeTextUnit u := by
  unfold escapeTextUnit
  split
  · decide
  · split
    · decide
    · split
      · decide
      · simp_all [eq_comm]

theorem escapeAttributeUnit_clean (u : UInt16) :
    unit '<' ∉ escapeAttributeUnit u ∧ unit '>' ∉ escapeAttributeUnit u ∧
      DOUBLE_QUOTE ∉ escapeAttributeUnit u := by
  unfold escapeAttributeUnit
  split
  · decide
  · obtain ⟨lt, gt⟩ := escapeTextUnit_clean u
    refine ⟨lt, gt, ?_⟩
    unfold escapeTextUnit
    split
    · decide
    · split
      · decide
      · split
        · decide
        · simp_all [eq_comm]

/-- Escaped text opens and closes no tag. -/
theorem escapeText_clean (value : Units) :
    unit '<' ∉ escapeText value ∧ unit '>' ∉ escapeText value := by
  simp only [escapeText_eq, List.mem_flatMap, not_exists, not_and]
  exact ⟨fun u _ => (escapeTextUnit_clean u).1, fun u _ => (escapeTextUnit_clean u).2⟩

/-- An escaped value stays inside its quotes. -/
theorem escapeAttributeValue_clean (value : Units) :
    unit '<' ∉ escapeAttributeValue value ∧ unit '>' ∉ escapeAttributeValue value ∧
      DOUBLE_QUOTE ∉ escapeAttributeValue value := by
  simp only [escapeAttributeValue_eq, List.mem_flatMap, not_exists, not_and]
  exact ⟨fun u _ => (escapeAttributeUnit_clean u).1, fun u _ => (escapeAttributeUnit_clean u).2.1,
    fun u _ => (escapeAttributeUnit_clean u).2.2⟩

theorem escapeAttributeUnit_cases (u : UInt16) :
    escapeAttributeUnit u = [u] ∨ ∃ name, escapeAttributeUnit u = unit '&' :: name ++ [unit ';'] := by
  unfold escapeAttributeUnit escapeTextUnit
  split
  · exact Or.inr ⟨units "quot", rfl⟩
  · split
    · exact Or.inr ⟨units "amp", rfl⟩
    · split
      · exact Or.inr ⟨units "lt", rfl⟩
      · split
        · exact Or.inr ⟨units "gt", rfl⟩
        · exact Or.inl rfl

theorem escapeAttributeUnit_space {u : UInt16} (space : isSpace u) : escapeAttributeUnit u = [u] := by
  have apart : ∀ v, isSpace v = false → u ≠ v := by
    rintro v other rfl
    rw [space] at other
    cases other
  simp [escapeAttributeUnit, escapeTextUnit, apart DOUBLE_QUOTE (by decide),
    apart (unit '&') (by decide), apart (unit '<') (by decide), apart (unit '>') (by decide)]

/-- No escape starts or ends with white space, so none is trimmed. -/
theorem trim_escapeAttributeValue (value : Units) :
    trim (escapeAttributeValue value) = escapeAttributeValue (trim value) := by
  have stays : ∀ u, isSpace u → escapeAttributeUnit u = [u] := fun u => escapeAttributeUnit_space
  have starts : ∀ u, isSpace u = false → ∃ v ∈ (escapeAttributeUnit u).head?, isSpace v = false := by
    intro u other
    rcases escapeAttributeUnit_cases u with same | ⟨name, same⟩
    · exact ⟨u, by simp [same], other⟩
    · exact ⟨unit '&', by simp [same], by decide⟩
  have ends : ∀ u, isSpace u = false →
      ∃ v ∈ ((List.reverse ∘ escapeAttributeUnit) u).head?, isSpace v = false := by
    intro u other
    rcases escapeAttributeUnit_cases u with same | ⟨name, same⟩
    · exact ⟨u, by simp [same], other⟩
    · exact ⟨unit ';', by simp [same], by decide⟩
  have stays' : ∀ u, isSpace u → (List.reverse ∘ escapeAttributeUnit) u = [u] := by
    intro u space
    simp [stays u space]
  simp only [trim, escapeAttributeValue_eq, List.rdropWhile]
  rw [dropWhile_flatMap stays starts, List.reverse_flatMap, dropWhile_flatMap stays' ends,
    List.reverse_flatMap]
  congr 1
  funext u
  simp

theorem escapeAttributeUnit_ne_nil (u : UInt16) : escapeAttributeUnit u ≠ [] := by
  rcases escapeAttributeUnit_cases u with same | ⟨name, same⟩
  · simp [same]
  · simp [same]

theorem length_le_escapeAttributeValue (value : Units) :
    value.length ≤ (escapeAttributeValue value).length := by
  rw [escapeAttributeValue_eq]
  induction value with
  | nil => exact le_refl _
  | cons u rest ih =>
    have positive := List.length_pos_iff.mpr (escapeAttributeUnit_ne_nil u)
    rw [List.flatMap_cons, List.length_append, List.length_cons]
    omega

/-- A value that loses something to trimming is written shorter without it. -/
theorem escapeAttributeValue_trim_lt {value : Units} (h : trim value ≠ value) :
    (escapeAttributeValue (trim value)).length < (escapeAttributeValue value).length := by
  obtain ⟨front, back, parts⟩ := trim_parts value
  have whole : (escapeAttributeValue value).length = (escapeAttributeValue front).length +
      (escapeAttributeValue (trim value)).length + (escapeAttributeValue back).length := by
    conv_lhs => rw [parts]
    simp [escapeAttributeValue_eq, Nat.add_assoc]
  have lost : 0 < front.length + back.length := by
    by_contra none_
    have empty : front = [] ∧ back = [] := by
      constructor
      · exact List.eq_nil_of_length_eq_zero (by omega)
      · exact List.eq_nil_of_length_eq_zero (by omega)
    rw [empty.1, empty.2] at parts
    exact h (by simpa using parts.symm)
  have left_ := length_le_escapeAttributeValue front
  have right_ := length_le_escapeAttributeValue back
  omega

theorem escapeAttributeValue_plain {value : Units} (h : ∀ u ∈ value, escapeAttributeUnit u = [u]) :
    escapeAttributeValue value = value := by
  rw [escapeAttributeValue_eq]
  exact (List.flatMap_congr h).trans (List.flatMap_singleton' value)

/-- A number with a unit has nothing to trim and nothing to escape. -/
theorem dimension_plain {value : Units}
    (h : value.drop (value.takeWhile isDigit).length ∈ ["", "px", "em", "%"].map units) :
    ∀ u ∈ value, isSpace u = false ∧ escapeAttributeUnit u = [u] := by
  have digit : ∀ u, isDigit u → isSpace u = false ∧ escapeAttributeUnit u = [u] := by
    intro u inside
    have apart : ∀ v, isDigit v = false → u ≠ v := by
      rintro v other rfl
      rw [inside] at other
      cases other
    refine ⟨isSpace_of_isDigit inside, ?_⟩
    simp [escapeAttributeUnit, escapeTextUnit, apart DOUBLE_QUOTE (by decide),
      apart (unit '&') (by decide), apart (unit '<') (by decide), apart (unit '>') (by decide)]
  have ends : ∀ suffix ∈ ["", "px", "em", "%"].map units, ∀ u ∈ suffix,
      isSpace u = false ∧ escapeAttributeUnit u = [u] := by decide
  intro u member
  rw [drop_takeWhile] at h
  rw [← List.takeWhile_append_dropWhile (p := isDigit) (l := value)] at member
  rcases List.mem_append.mp member with inside | behind
  · exact digit u (List.mem_takeWhile_imp inside)
  · exact ends _ h u behind

end Escapes

section Resolving
variable {pattern : ReferencePattern} {resolve : Units → Bool → Option Units}

theorem replaceReferences_skip (skip : Nat) (text : Units) :
    replaceReferences pattern resolve skip text =
      replaceReferences pattern resolve 0 (text.drop skip) := by
  induction skip generalizing text with
  | zero => rfl
  | succ skip ih =>
    cases text with
    | nil => rfl
    | cons u rest => exact ih rest

theorem replaceReferences_cons {u : UInt16} (plain : u ≠ unit '&') (rest : Units) :
    replaceReferences pattern resolve 0 (u :: rest) =
      u :: replaceReferences pattern resolve 0 rest := by
  rw [replaceReferences, if_neg plain]

/-- A name that stands between an ampersand and a semicolon is read as it is. -/
theorem read_named {u : UInt16} {name : Units} (letter : isLetter u) (others : name.all isAlphanumeric)
    (rest : Units) : pattern.read (u :: name ++ unit ';' :: rest) = some (u :: name, true) := by
  have sharp : u ≠ unit '#' := by
    rintro rfl
    revert letter
    decide
  have run : (name ++ unit ';' :: rest).takeWhile isAlphanumeric = name := by
    refine takeWhile_append_stop others fun v hv => ?_
    obtain rfl := Option.some.inj hv
    decide
  simp [ReferencePattern.read, readReference, sharp, letter, run]

theorem replaceReferences_named {u : UInt16} {name resolved : Units} (letter : isLetter u)
    (others : name.all isAlphanumeric) (known : resolve (u :: name) true = some resolved)
    (rest : Units) :
    replaceReferences pattern resolve 0 (unit '&' :: u :: name ++ unit ';' :: rest) =
      resolved ++ replaceReferences pattern resolve 0 rest := by
  rw [List.cons_append, replaceReferences, if_pos rfl, read_named letter others rest]
  simp only [known, Option.getD_some, replaceReferences_skip _ (u :: name ++ _)]
  simp

/-- No reference resolves to nothing, so what is resolved stays something. -/
theorem replaceReferences_ne_nil (some_ : ∀ reference semicolon, resolve reference semicolon ≠ some [])
    {text : Units} (h : text ≠ []) : replaceReferences pattern resolve 0 text ≠ [] := by
  cases text with
  | nil => exact absurd rfl h
  | cons u rest =>
    rw [replaceReferences]
    split
    · split
      · rename_i reference semicolon read
        cases found : resolve reference semicolon with
        | none => simp [writtenReference]
        | some resolved =>
          have nonempty : resolved ≠ [] := by
            rintro rfl
            exact some_ reference semicolon found
          simp [nonempty]
      · exact List.cons_ne_nil _ _
    · exact List.cons_ne_nil _ _

/-- A unit that no reference goes past. -/
structure ReferencePattern.Stops (pattern : ReferencePattern) (u : UInt16) : Prop where
  alphanumeric : isAlphanumeric u = false
  sharp : u ≠ unit '#'
  semicolon : u ≠ unit ';'
  ampersand : u ≠ unit '&'
  hexMark : pattern.hexMark u = false

theorem isAlphanumeric_of_isHexDigit {u : UInt16} (h : isHexDigit u) : isAlphanumeric u := by
  simp only [isHexDigit, isAlphanumeric, isLetter, Bool.or_eq_true, Bool.and_eq_true,
    decide_eq_true_eq, UInt16.le_iff_toNat_le] at h ⊢
  have bounds : (65 : UInt16).toNat = 65 ∧ (70 : UInt16).toNat = 70 ∧ (90 : UInt16).toNat = 90 ∧
      (97 : UInt16).toNat = 97 ∧ (102 : UInt16).toNat = 102 ∧ (122 : UInt16).toNat = 122 := by
    decide
  rcases h with (digit | upper) | lower
  · exact Or.inr digit
  · exact Or.inl (Or.inl (by omega))
  · exact Or.inl (Or.inr (by omega))

section Stops
variable {u : UInt16}

theorem readReference_stop (stops : pattern.Stops u) (before rest : Units) :
    readReference pattern.hexMark (before ++ u :: rest) = readReference pattern.hexMark before := by
  obtain ⟨letter, digit⟩ : isLetter u = false ∧ isDigit u = false := by
    simpa [isAlphanumeric] using stops.alphanumeric
  have hex : isHexDigit u = false := by
    by_contra other
    have member := isAlphanumeric_of_isHexDigit (by simpa using other)
    rw [stops.alphanumeric] at member
    cases member
  cases before with
  | nil => simp [readReference, stops.sharp, letter]
  | cons v before =>
    simp only [List.cons_append, readReference, takeWhile_append_outside stops.alphanumeric]
    cases before with
    | nil => simp [readNumber, digit, stops.hexMark]
    | cons w before =>
      simp only [List.cons_append, readNumber, takeWhile_append_outside digit,
        takeWhile_append_outside hex]

theorem readNumber_start {hexMark : UInt16 → Bool} {text number : Units}
    (h : readNumber hexMark text = some number) : number <+: text := by
  cases text with
  | nil => cases h
  | cons u rest =>
    simp only [readNumber] at h
    split at h
    · obtain rfl := Option.some.inj h
      exact List.cons_prefix_cons.mpr ⟨rfl, List.takeWhile_prefix _⟩
    · obtain ⟨-, same⟩ := Option.ite_none_right_eq_some.mp h
      obtain rfl := Option.some.inj same
      exact List.cons_prefix_cons.mpr ⟨rfl, List.takeWhile_prefix _⟩

theorem readReference_start {hexMark : UInt16 → Bool} {text reference : Units}
    (h : readReference hexMark text = some reference) : reference <+: text := by
  cases text with
  | nil => cases h
  | cons u rest =>
    simp only [readReference] at h
    split at h
    · obtain ⟨number, read, rfl⟩ := Option.map_eq_some_iff.mp h
      exact List.cons_prefix_cons.mpr ⟨rfl, readNumber_start read⟩
    · obtain ⟨-, same⟩ := Option.ite_none_right_eq_some.mp h
      obtain rfl := Option.some.inj same
      exact List.cons_prefix_cons.mpr ⟨rfl, List.takeWhile_prefix _⟩

theorem read_stop (stops : pattern.Stops u) (before rest : Units) :
    pattern.read (before ++ u :: rest) = pattern.read before := by
  unfold ReferencePattern.read
  rw [readReference_stop stops]
  cases found : readReference pattern.hexMark before with
  | none => rfl
  | some reference =>
    have within := (readReference_start found).length_le
    have ends : (((before ++ u :: rest).drop reference.length).head? == some (unit ';')) =
        ((before.drop reference.length).head? == some (unit ';')) := by
      rw [List.drop_append_of_le_length within]
      cases before.drop reference.length with
      | nil => simp [stops.semicolon]
      | cons v behind => rfl
    simp only [ends]

/-- What a reference takes of a text. -/
theorem read_length {text reference : Units} {semicolon : Bool}
    (h : pattern.read text = some (reference, semicolon)) :
    reference.length + semicolon.toNat ≤ text.length := by
  unfold ReferencePattern.read at h
  cases found : readReference pattern.hexMark text with
  | none => simp [found] at h
  | some read =>
    have within := (readReference_start found).length_le
    simp only [found] at h
    split at h
    · cases h
    · obtain ⟨rfl, rfl⟩ := Prod.mk.inj (Option.some.inj h)
      cases behind : text.drop read.length with
      | nil => simpa using within
      | cons v rest =>
        have longer := congrArg List.length behind
        rw [List.length_drop, List.length_cons] at longer
        have most := Bool.toNat_le ((v :: rest).head? == some (unit ';'))
        omega

/-- Text is resolved on both sides of such a unit by itself. -/
theorem replaceReferences_stop (stops : pattern.Stops u) {before : Units} {skip : Nat}
    (within : skip ≤ before.length) (rest : Units) :
    replaceReferences pattern resolve skip (before ++ u :: rest) =
      replaceReferences pattern resolve skip before ++
        u :: replaceReferences pattern resolve 0 rest := by
  induction before generalizing skip with
  | nil =>
    obtain rfl := Nat.le_zero.mp within
    simp [replaceReferences, stops.ampersand]
  | cons v before ih =>
    cases skip with
    | succ skip => exact ih (Nat.le_of_succ_le_succ within)
    | zero =>
      rw [List.cons_append, replaceReferences, replaceReferences, read_stop stops]
      split
      · split
        · rename_i reference semicolon read
          rw [ih (read_length read), List.append_assoc]
        · rw [ih (Nat.zero_le _), List.cons_append]
      · rw [ih (Nat.zero_le _), List.cons_append]

end Stops

/-- The four names that escapes are written with. -/
structure ResolvesEscapes (resolve : Units → Bool → Option Units) : Prop where
  amp : resolve (units "amp") true = some [unit '&']
  lt : resolve (units "lt") true = some [unit '<']
  gt : resolve (units "gt") true = some [unit '>']
  quot : resolve (units "quot") true = some [DOUBLE_QUOTE]

namespace ResolvesEscapes

theorem textUnit (h : ResolvesEscapes resolve) (u : UInt16) (rest : Units) :
    replaceReferences pattern resolve 0 (escapeTextUnit u ++ rest) =
      u :: replaceReferences pattern resolve 0 rest := by
  unfold escapeTextUnit
  split
  · subst u
    exact replaceReferences_named (by decide) (by decide) h.amp rest
  · rename_i plain
    split
    · subst u
      exact replaceReferences_named (by decide) (by decide) h.lt rest
    · split
      · subst u
        exact replaceReferences_named (by decide) (by decide) h.gt rest
      · exact replaceReferences_cons plain rest

theorem attributeUnit (h : ResolvesEscapes resolve) (u : UInt16) (rest : Units) :
    replaceReferences pattern resolve 0 (escapeAttributeUnit u ++ rest) =
      u :: replaceReferences pattern resolve 0 rest := by
  unfold escapeAttributeUnit
  split
  · subst u
    exact replaceReferences_named (by decide) (by decide) h.quot rest
  · exact h.textUnit u rest

theorem text (h : ResolvesEscapes resolve) (value : Units) :
    replaceReferences pattern resolve 0 (escapeText value) = value := by
  rw [escapeText_eq]
  induction value with
  | nil => rfl
  | cons u value ih => rw [List.flatMap_cons, h.textUnit, ih]

theorem attributeValue (h : ResolvesEscapes resolve) (value : Units) :
    replaceReferences pattern resolve 0 (escapeAttributeValue value) = value := by
  rw [escapeAttributeValue_eq]
  induction value with
  | nil => rfl
  | cons u value ih => rw [List.flatMap_cons, h.attributeUnit, ih]

end ResolvesEscapes
end Resolving
end Html
