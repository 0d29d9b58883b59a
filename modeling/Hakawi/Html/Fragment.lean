import Hakawi.Html.References

/-!
# Fragments and their tokens

A fragment is a sequence of text, start tags and end tags. The tokenizer takes the
states of the HTML standard that text and tags lead through. It reads no comment
and no declaration: `none` means that the input has one. References stay as they
are written.
-/

namespace Html

structure Attribute where
  name : Units
  value : Units
  deriving DecidableEq

/-- A part of a fragment, as it is written. -/
inductive Piece where
  | text (written : Units)
  | openTag (name : Units) (attributes : List Attribute)
  | closeTag (name : Units)
  deriving DecidableEq

def Attribute.write (attr : Attribute) : Units :=
  unit ' ' :: attr.name ++ unit '=' :: DOUBLE_QUOTE :: attr.value ++ [DOUBLE_QUOTE]

def Piece.write : Piece → Units
  | .text written => written
  | .openTag name attributes => unit '<' :: name ++ attributes.flatMap Attribute.write ++ [unit '>']
  | .closeTag name => unit '<' :: unit '/' :: name ++ [unit '>']

def write (pieces : List Piece) : Units := pieces.flatMap Piece.write

@[simp] theorem write_append (a b : List Piece) : write (a ++ b) = write a ++ write b :=
  List.flatMap_append

inductive HtmlToken where
  | character (u : UInt16)
  | startTag (name : Units) (attributes : List Attribute) (selfClosing : Bool)
  | endTag (name : Units)
  deriving DecidableEq

namespace Tokenizer

/-- A tag that is being read. -/
structure Tag where
  closing : Bool
  name : Units
  attributes : List Attribute

inductive State where
  | data
  | tagOpen
  | endTagOpen
  | tagName (tag : Tag)
  | beforeAttributeName (tag : Tag)
  | attributeName (tag : Tag) (name : Units)
  | afterAttributeName (tag : Tag) (name : Units)
  | beforeAttributeValue (tag : Tag) (name : Units)
  | attributeValueQuoted (quote : UInt16) (tag : Tag) (name value : Units)
  | attributeValueUnquoted (tag : Tag) (name value : Units)
  | afterAttributeValueQuoted (tag : Tag)
  | selfClosingStartTag (tag : Tag)

def isWhitespace (u : UInt16) : Bool := u ∈ [9, 10, 12, 32]

/-- A null stands for the replacement character. -/
def shown (u : UInt16) : UInt16 := if u = 0 then 0xfffd else u

/-- What a unit adds to a name: its lower case. -/
def named (u : UInt16) : UInt16 := if 65 ≤ u && u ≤ 90 then u + 32 else shown u

/-- The first attribute of a name is the one that counts. -/
def addAttribute (attributes : List Attribute) (attr : Attribute) : List Attribute :=
  if attributes.any (·.name = attr.name) then attributes else attributes ++ [attr]

def Tag.add (tag : Tag) (name value : Units) : Tag :=
  { tag with attributes := addAttribute tag.attributes ⟨name, value⟩ }

def Tag.token (tag : Tag) (selfClosing : Bool) : HtmlToken :=
  if tag.closing then .endTag tag.name else .startTag tag.name tag.attributes selfClosing

def dataStep (u : UInt16) : State × List HtmlToken :=
  if u = unit '<' then (.tagOpen, []) else (.data, [.character u])

def afterAttributeNameStep (tag : Tag) (name : Units) (u : UInt16) : State × List HtmlToken :=
  if isWhitespace u then (.afterAttributeName tag name, [])
  else if u = unit '/' then (.selfClosingStartTag (tag.add name []), [])
  else if u = unit '=' then (.beforeAttributeValue tag name, [])
  else if u = unit '>' then (.data, [(tag.add name []).token false])
  else (.attributeName (tag.add name []) [named u], [])

def attributeNameStep (tag : Tag) (name : Units) (u : UInt16) : State × List HtmlToken :=
  if isWhitespace u || u = unit '/' || u = unit '>' then afterAttributeNameStep tag name u
  else if u = unit '=' then (.beforeAttributeValue tag name, [])
  else (.attributeName tag (name ++ [named u]), [])

def beforeAttributeNameStep (tag : Tag) (u : UInt16) : State × List HtmlToken :=
  if isWhitespace u then (.beforeAttributeName tag, [])
  else if u = unit '/' then (.selfClosingStartTag tag, [])
  else if u = unit '>' then (.data, [tag.token false])
  else (.attributeName tag [named u], [])

def attributeValueUnquotedStep (tag : Tag) (name value : Units) (u : UInt16) :
    State × List HtmlToken :=
  if isWhitespace u then (.beforeAttributeName (tag.add name value), [])
  else if u = unit '>' then (.data, [(tag.add name value).token false])
  else (.attributeValueUnquoted tag name (value ++ [shown u]), [])

/-- One unit of the input. `none` is a comment or a declaration. -/
def step : State → UInt16 → Option (State × List HtmlToken)
  | .data, u => some (dataStep u)
  | .tagOpen, u =>
    if u = unit '!' || u = unit '?' then none
    else if u = unit '/' then some (.endTagOpen, [])
    else if isLetter u then some (.tagName ⟨false, [named u], []⟩, [])
    else
      let reconsumed := dataStep u
      some (reconsumed.1, .character (unit '<') :: reconsumed.2)
  | .endTagOpen, u =>
    if isLetter u then some (.tagName ⟨true, [named u], []⟩, [])
    else if u = unit '>' then some (.data, [])
    else none
  | .tagName tag, u =>
    if isWhitespace u then some (.beforeAttributeName tag, [])
    else if u = unit '/' then some (.selfClosingStartTag tag, [])
    else if u = unit '>' then some (.data, [tag.token false])
    else some (.tagName { tag with name := tag.name ++ [named u] }, [])
  | .beforeAttributeName tag, u => some (beforeAttributeNameStep tag u)
  | .attributeName tag name, u => some (attributeNameStep tag name u)
  | .afterAttributeName tag name, u => some (afterAttributeNameStep tag name u)
  | .beforeAttributeValue tag name, u =>
    if isWhitespace u then some (.beforeAttributeValue tag name, [])
    else if u = DOUBLE_QUOTE || u = SINGLE_QUOTE then some (.attributeValueQuoted u tag name [], [])
    else some (attributeValueUnquotedStep tag name [] u)
  | .attributeValueQuoted quote tag name value, u =>
    if u = quote then some (.afterAttributeValueQuoted (tag.add name value), [])
    else some (.attributeValueQuoted quote tag name (value ++ [shown u]), [])
  | .attributeValueUnquoted tag name value, u => some (attributeValueUnquotedStep tag name value u)
  | .afterAttributeValueQuoted tag, u =>
    some (beforeAttributeNameStep tag u)
  | .selfClosingStartTag tag, u =>
    if u = unit '>' then some (.data, [tag.token true]) else some (beforeAttributeNameStep tag u)

def run : State → Units → Option (State × List HtmlToken)
  | state, [] => some (state, [])
  | state, u :: rest => do
    let (next, tokens) ← step state u
    let (last, others) ← run next rest
    return (last, tokens ++ others)

/-- What the end of the input still yields. A tag that it cuts off is lost. -/
def endOfFile : State → List HtmlToken
  | .tagOpen => [.character (unit '<')]
  | .endTagOpen => [.character (unit '<'), .character (unit '/')]
  | _ => []

end Tokenizer

/-- The tokens of an input. -/
def tokenize (input : Units) : Option (List HtmlToken) :=
  (Tokenizer.run .data input).map fun (last, tokens) => tokens ++ Tokenizer.endOfFile last

/-- A lower case letter or a digit. -/
def isNameUnit (u : UInt16) : Bool := (97 ≤ u && u ≤ 122) || isDigit u

/-- A lower case letter, and then letters and digits. -/
def isName : Units → Bool
  | [] => false
  | u :: rest => (97 ≤ u && u ≤ 122) && rest.all isNameUnit

namespace Piece

/-- What can be told apart again: a tag starts no text and a quote ends no value. -/
def Legible : Piece → Prop
  | .text written => unit '<' ∉ written
  | .openTag name attributes =>
    isName name ∧ ∀ attr ∈ attributes, isName attr.name ∧ DOUBLE_QUOTE ∉ attr.value
  | .closeTag name => isName name

/-- The attributes of a tag that counts only the first one of each name. -/
def firstAttributes (attributes : List Attribute) : List Attribute :=
  attributes.foldl (fun kept attr =>
    Tokenizer.addAttribute kept ⟨attr.name, attr.value.map Tokenizer.shown⟩) []

def tokens : Piece → List HtmlToken
  | .text written => written.map .character
  | .openTag name attributes => [.startTag name (firstAttributes attributes) false]
  | .closeTag name => [.endTag name]

end Piece

theorem isNameUnit_of_isName {name : Units} (h : isName name) : ∀ u ∈ name, isNameUnit u := by
  cases name with
  | nil => cases h
  | cons u rest =>
    obtain ⟨first, others⟩ := Bool.and_eq_true_iff.mp h
    intro v hv
    rcases List.mem_cons.mp hv with rfl | hv
    · simp [isNameUnit, first]
    · exact List.all_eq_true.mp others v hv

theorem isNameUnit_ne {u v : UInt16} (h : isNameUnit u) (other : ¬ isNameUnit v) : u ≠ v := by
  rintro rfl
  exact other h

namespace Tokenizer

theorem isWhitespace_of_isNameUnit {u : UInt16} (h : isNameUnit u) : isWhitespace u = false := by
  by_contra space
  rw [Bool.not_eq_false] at space
  simp only [isWhitespace, List.mem_cons, List.not_mem_nil, or_false, decide_eq_true_eq] at space
  rcases space with rfl | rfl | rfl | rfl <;> revert h <;> decide

theorem named_of_isNameUnit {u : UInt16} (h : isNameUnit u) : named u = u := by
  have shown_ : u ≠ 0 := isNameUnit_ne h (by decide)
  simp only [isNameUnit, isDigit, Bool.or_eq_true, Bool.and_eq_true, decide_eq_true_eq,
    UInt16.le_iff_toNat_le] at h
  have lower : ¬ (65 ≤ u.toNat ∧ u.toNat ≤ 90) := by
    have bounds : (97 : UInt16).toNat = 97 ∧ (48 : UInt16).toNat = 48 ∧
      (57 : UInt16).toNat = 57 := by decide
    omega
  simp only [named, shown, Bool.and_eq_true, decide_eq_true_eq, UInt16.le_iff_toNat_le]
  rw [if_neg shown_]
  exact if_neg lower

/-- The tokenizer gets from one state to another and emits these tokens. -/
def Reads (state : State) (text : Units) (next : State) (tokens : List HtmlToken) : Prop :=
  run state text = some (next, tokens)

namespace Reads
variable {state middle next : State} {first second : Units} {tokens others : List HtmlToken}

theorem nil : Reads state [] state [] := rfl

theorem cons {u : UInt16} (one : step state u = some (middle, tokens))
    (rest : Reads middle second next others) : Reads state (u :: second) next (tokens ++ others) := by
  unfold Reads at rest ⊢
  simp [run, one, rest]

theorem silent {u : UInt16} (one : step state u = some (middle, []))
    (rest : Reads middle second next others) : Reads state (u :: second) next others :=
  cons one rest

theorem append (h : Reads state first middle tokens) (rest : Reads middle second next others) :
    Reads state (first ++ second) next (tokens ++ others) := by
  induction first generalizing state tokens with
  | nil =>
    obtain ⟨rfl, rfl⟩ := Prod.mk.inj (Option.some.inj h)
    exact rest
  | cons u first ih =>
    unfold Reads at h
    cases one : step state u with
    | none => simp [run, one] at h
    | some stepped =>
      cases more : run stepped.1 first with
      | none => simp [run, one, more] at h
      | some ran =>
        simp only [run, one, more, bind, Option.bind, pure, Option.some.injEq, Prod.mk.injEq] at h
        obtain ⟨rfl, rfl⟩ := h
        have further : Reads stepped.1 first ran.1 ran.2 := more
        rw [List.append_assoc]
        exact cons one (ih further)

theorem text {written : Units} (plain : unit '<' ∉ written) :
    Reads .data written .data (written.map .character) := by
  induction written with
  | nil => exact nil
  | cons u rest ih =>
    obtain ⟨different, others⟩ := List.ne_and_not_mem_of_not_mem_cons plain
    have one : step .data u = some (.data, [.character u]) := by
      simp [step, dataStep, different.symm]
    exact cons one (ih others)

theorem tagName {tag : Tag} {name : Units} (plain : ∀ u ∈ name, isNameUnit u) :
    Reads (.tagName tag) name (.tagName { tag with name := tag.name ++ name }) [] := by
  induction name generalizing tag with
  | nil => simp [Reads, run]
  | cons u rest ih =>
    obtain ⟨first, others⟩ := List.forall_mem_cons.mp plain
    have one : step (.tagName tag) u = some (.tagName { tag with name := tag.name ++ [u] }, []) := by
      simp [step, isWhitespace_of_isNameUnit first, isNameUnit_ne first (v := unit '/') (by decide),
        isNameUnit_ne first (v := unit '>') (by decide), named_of_isNameUnit first]
    simpa using cons one (ih others)

theorem attributeName {tag : Tag} {read name : Units} (plain : ∀ u ∈ name, isNameUnit u) :
    Reads (.attributeName tag read) name (.attributeName tag (read ++ name)) [] := by
  induction name generalizing read with
  | nil => simp [Reads, run]
  | cons u rest ih =>
    obtain ⟨first, others⟩ := List.forall_mem_cons.mp plain
    have one : step (.attributeName tag read) u =
        some (.attributeName tag (read ++ [u]), []) := by
      simp [step, attributeNameStep, isWhitespace_of_isNameUnit first,
        isNameUnit_ne first (v := unit '/') (by decide),
        isNameUnit_ne first (v := unit '>') (by decide),
        isNameUnit_ne first (v := unit '=') (by decide), named_of_isNameUnit first]
    simpa using cons one (ih others)

theorem quotedValue {tag : Tag} {name read value : Units} (plain : DOUBLE_QUOTE ∉ value) :
    Reads (.attributeValueQuoted DOUBLE_QUOTE tag name read) value
      (.attributeValueQuoted DOUBLE_QUOTE tag name (read ++ value.map shown)) [] := by
  induction value generalizing read with
  | nil => simp [Reads, run]
  | cons u rest ih =>
    obtain ⟨different, others⟩ := List.ne_and_not_mem_of_not_mem_cons plain
    have one : step (.attributeValueQuoted DOUBLE_QUOTE tag name read) u =
        some (.attributeValueQuoted DOUBLE_QUOTE tag name (read ++ [shown u]), []) := by
      simp [step, different.symm]
    simpa using cons one (ih others)

end Reads

/-- The tag may end here, and another attribute may follow. -/
structure Between (state : State) (tag : Tag) : Prop where
  space : step state (unit ' ') = some (.beforeAttributeName tag, [])
  ends : step state (unit '>') = some (.data, [tag.token false])

theorem Between.tagName (tag : Tag) : Between (.tagName tag) tag := by
  constructor <;> rfl

theorem Between.afterAttributeValueQuoted (tag : Tag) :
    Between (.afterAttributeValueQuoted tag) tag := by
  constructor <;> rfl

theorem Between.attribute {state : State} {tag : Tag} (h : Between state tag) {attr : Attribute}
    (name : isName attr.name) (value : DOUBLE_QUOTE ∉ attr.value) :
    Reads state attr.write
      (.afterAttributeValueQuoted (tag.add attr.name (attr.value.map shown))) [] := by
  have plain := isNameUnit_of_isName name
  obtain ⟨written, content⟩ := attr
  cases written with
  | nil => cases name
  | cons u rest =>
    obtain ⟨first, others⟩ := List.forall_mem_cons.mp plain
    have begins : step (.beforeAttributeName tag) u = some (.attributeName tag [u], []) := by
      simp [step, beforeAttributeNameStep, isWhitespace_of_isNameUnit first,
        isNameUnit_ne first (v := unit '/') (by decide),
        isNameUnit_ne first (v := unit '>') (by decide), named_of_isNameUnit first]
    have quoted : Reads (.attributeName tag (u :: rest))
        (unit '=' :: DOUBLE_QUOTE :: content ++ [DOUBLE_QUOTE])
        (.afterAttributeValueQuoted (tag.add (u :: rest) (content.map shown))) [] := by
      refine .silent rfl (.silent rfl ?_)
      exact (Reads.quotedValue value).append (.silent rfl .nil)
    have whole := Reads.cons h.space (.cons begins ((Reads.attributeName others).append quoted))
    simpa [Attribute.write] using whole

theorem Between.attributes {state : State} {tag : Tag} (h : Between state tag)
    {attributes : List Attribute}
    (plain : ∀ attr ∈ attributes, isName attr.name ∧ DOUBLE_QUOTE ∉ attr.value) :
    Reads state (attributes.flatMap Attribute.write ++ [unit '>']) .data
      [({ tag with attributes := attributes.foldl (fun kept attr =>
        addAttribute kept ⟨attr.name, attr.value.map shown⟩) tag.attributes } : Tag).token
          false] := by
  induction attributes generalizing state tag with
  | nil => exact .cons h.ends .nil
  | cons attr rest ih =>
    obtain ⟨first, others⟩ := List.forall_mem_cons.mp plain
    have here := h.attribute first.1 first.2
    have further := ih (Between.afterAttributeValueQuoted (tag.add attr.name
      (attr.value.map shown))) others
    simpa [Tag.add] using here.append further

/-- A tag that is being read, with nothing but its name. -/
theorem Reads.name {state : State} {closing : Bool} {name : Units} (plain : isName name)
    (opens : ∀ u, isLetter u → step state u = some (.tagName ⟨closing, [named u], []⟩, [])) :
    Reads state name (.tagName ⟨closing, name, []⟩) [] := by
  have units_ := isNameUnit_of_isName plain
  cases name with
  | nil => cases plain
  | cons u rest =>
    obtain ⟨first, others⟩ := List.forall_mem_cons.mp units_
    have letter : isLetter u := by
      obtain ⟨lower, -⟩ := Bool.and_eq_true_iff.mp plain
      simp [isLetter, lower]
    have one := opens u letter
    rw [named_of_isNameUnit first] at one
    simpa using Reads.cons one (Reads.tagName others)

theorem step_tagOpen_letter (u : UInt16) (letter : isLetter u) :
    step .tagOpen u = some (.tagName ⟨false, [named u], []⟩, []) := by
  have apart : ∀ v, isLetter v = false → u ≠ v := by
    rintro v other rfl
    rw [letter] at other
    cases other
  simp [step, apart (unit '!') (by decide), apart (unit '?') (by decide),
    apart (unit '/') (by decide), letter]

theorem step_endTagOpen_letter (u : UInt16) (letter : isLetter u) :
    step .endTagOpen u = some (.tagName ⟨true, [named u], []⟩, []) := by
  simp [step, letter]

theorem reads_piece {piece : Piece} (h : piece.Legible) :
    Reads .data piece.write .data piece.tokens := by
  cases piece with
  | text written => exact .text h
  | openTag name attributes =>
    obtain ⟨plain, others⟩ := h
    have opened : Reads .tagOpen name (.tagName ⟨false, name, []⟩) [] :=
      .name plain step_tagOpen_letter
    have whole := opened.append ((Between.tagName ⟨false, name, []⟩).attributes others)
    have starts : step .data (unit '<') = some (.tagOpen, []) := rfl
    simpa [Piece.write, Piece.tokens, Piece.firstAttributes, Tag.token] using
      Reads.silent starts whole
  | closeTag name =>
    have closed : Reads .endTagOpen name (.tagName ⟨true, name, []⟩) [] :=
      .name h step_endTagOpen_letter
    have ends : Reads (.tagName ⟨true, name, []⟩) [unit '>'] .data [.endTag name] := rfl
    have starts : step .data (unit '<') = some (.tagOpen, []) := rfl
    have turns : step .tagOpen (unit '/') = some (.endTagOpen, []) := rfl
    simpa [Piece.write, Piece.tokens] using
      Reads.silent starts (.silent turns (closed.append ends))

end Tokenizer

/-- The attribute as it is written, with its value escaped. -/
def Attribute.escape (attr : Attribute) : Attribute := ⟨attr.name, escapeAttributeValue attr.value⟩

/-- The piece as it is written, with its content escaped. -/
def Piece.escape : Piece → Piece
  | .text content => .text (escapeText content)
  | .openTag name attributes => .openTag name (attributes.map Attribute.escape)
  | .closeTag name => .closeTag name

/-- A piece with legible names, whatever its content is. -/
def Piece.Named : Piece → Prop
  | .text _ => True
  | .openTag name attributes => isName name ∧ ∀ attr ∈ attributes, isName attr.name
  | .closeTag name => isName name

theorem Piece.Named.legible {piece : Piece} (h : piece.Named) : piece.escape.Legible := by
  cases piece with
  | text content => exact (escapeText_clean content).1
  | openTag name attributes =>
    refine ⟨h.1, fun written listed => ?_⟩
    obtain ⟨attr, present, rfl⟩ := List.mem_map.mp listed
    exact ⟨h.2 attr present, (escapeAttributeValue_clean attr.value).2.2⟩
  | closeTag name => exact h

/-- What is written legibly is read back as it was meant. -/
theorem tokenize_write {pieces : List Piece} (h : ∀ piece ∈ pieces, piece.Legible) :
    tokenize (write pieces) = some (pieces.flatMap Piece.tokens) := by
  have reads : Tokenizer.Reads .data (write pieces) .data (pieces.flatMap Piece.tokens) := by
    induction pieces with
    | nil => exact .nil
    | cons piece rest ih =>
      obtain ⟨first, others⟩ := List.forall_mem_cons.mp h
      exact (Tokenizer.reads_piece first).append (ih others)
  unfold Tokenizer.Reads at reads
  simp [tokenize, reads, Tokenizer.endOfFile]

/-! ### The first attribute of a name -/

/-- The attribute of a name that counts for the tokenizer. -/
def firstOf (attributes : List Attribute) (name : Units) : Option Units :=
  (attributes.find? (·.name = name)).map (·.value)

theorem firstOf_cons (attr : Attribute) (rest : List Attribute) (name : Units) :
    firstOf (attr :: rest) name =
      if attr.name = name then some attr.value else firstOf rest name := by
  by_cases same : attr.name = name
  · simp [firstOf, same]
  · simp [firstOf, same]

theorem firstOf_escape (attributes : List Attribute) (name : Units) :
    firstOf (attributes.map Attribute.escape) name =
      (firstOf attributes name).map escapeAttributeValue := by
  induction attributes with
  | nil => rfl
  | cons attr rest ih =>
    rw [List.map_cons, firstOf_cons, firstOf_cons, ih]
    by_cases same : attr.name = name
    · simp [Attribute.escape, same]
    · simp [Attribute.escape, same]

theorem escapeAttributeValue_shown (value : Units) :
    (escapeAttributeValue value).map Tokenizer.shown =
      escapeAttributeValue (value.map Tokenizer.shown) := by
  have one : ∀ u, (escapeAttributeUnit u).map Tokenizer.shown =
      escapeAttributeUnit (Tokenizer.shown u) := by
    intro u
    by_cases null : u = 0
    · subst null
      rfl
    · have same : Tokenizer.shown u = u := by simp [Tokenizer.shown, null]
      rw [same]
      unfold escapeAttributeUnit escapeTextUnit
      split
      · rfl
      · split
        · rfl
        · split
          · rfl
          · split
            · rfl
            · simp [same]
  simp only [escapeAttributeValue_eq, List.map_flatMap, List.flatMap_map, one]

theorem mem_foldl_addAttribute {attributes kept : List Attribute} {attr : Attribute} :
    attr ∈ attributes.foldl (fun kept attr =>
        Tokenizer.addAttribute kept ⟨attr.name, attr.value.map Tokenizer.shown⟩) kept ↔
      attr ∈ kept ∨ (∀ other ∈ kept, other.name ≠ attr.name) ∧
        ∃ value, firstOf attributes attr.name = some value ∧
          attr.value = value.map Tokenizer.shown := by
  induction attributes generalizing kept with
  | nil => simp [firstOf]
  | cons first rest ih =>
    rw [List.foldl_cons, ih, Tokenizer.addAttribute]
    by_cases known : kept.any (·.name = first.name)
    · rw [if_pos known]
      refine or_congr_right (and_congr_right fun fresh => ?_)
      obtain ⟨other, member, same⟩ := List.any_eq_true.mp known
      have apart : first.name ≠ attr.name := fun equal =>
        fresh other member ((of_decide_eq_true same).trans equal)
      rw [firstOf_cons, if_neg apart]
    · have fresh : ∀ other ∈ kept, other.name ≠ first.name := by simpa using known
      rw [if_neg known, firstOf_cons]
      by_cases same : first.name = attr.name
      · simp only [if_pos same, List.mem_append, List.mem_singleton, Option.some.injEq]
        constructor
        · rintro ((old | rfl) | ⟨apart, -⟩)
          · exact Or.inl old
          · exact Or.inr ⟨fresh, _, rfl, rfl⟩
          · have other := apart ⟨first.name, first.value.map Tokenizer.shown⟩ (Or.inr rfl)
            exact absurd same other
        · rintro (old | ⟨-, value, rfl, shown_⟩)
          · exact Or.inl (Or.inl old)
          · refine Or.inl (Or.inr ?_)
            obtain ⟨name, value⟩ := attr
            rw [same, ← shown_]
      · simp only [if_neg same, List.mem_append, List.mem_singleton]
        constructor
        · rintro ((old | rfl) | ⟨apart, found⟩)
          · exact Or.inl old
          · exact absurd rfl same
          · exact Or.inr ⟨fun other member => apart other (Or.inl member), found⟩
        · rintro (old | ⟨apart, found⟩)
          · exact Or.inl (Or.inl old)
          · refine Or.inr ⟨?_, found⟩
            rintro other (member | rfl)
            · exact apart other member
            · exact same

/-- The attributes of a token are the first ones of their names. -/
theorem Piece.mem_firstAttributes {attributes : List Attribute} {attr : Attribute} :
    attr ∈ firstAttributes attributes ↔
      ∃ value, firstOf attributes attr.name = some value ∧
        attr.value = value.map Tokenizer.shown := by
  rw [firstAttributes, mem_foldl_addAttribute]
  simp

end Html
