import Hakawi.Html.Fragment

/-!
# Reading attributes by a pattern

The text of a tag after its name is searched for names, each with an optional
value in double quotes, in single quotes or bare. What the pattern does not match
is passed over. Attributes that were written legibly are read back by any pattern
that knows their names. The tag itself ends at the first `>` outside of quotes.
-/

namespace Html

/-- The classes of a pattern: how a name starts, how it goes on, and a bare value. -/
structure AttributePattern where
  nameStart : UInt16 → Bool
  nameRest : UInt16 → Bool
  bare : UInt16 → Bool

namespace AttributePattern
variable (pattern : AttributePattern)

/-- A value, and how long it is with its quotes. A quote that is not closed starts a
bare value, if that may hold a quote. -/
def readValue : Units → Units × Nat
  | [] => ([], 0)
  | u :: quoted =>
    let bare := (u :: quoted).takeWhile pattern.bare
    if u = DOUBLE_QUOTE || u = SINGLE_QUOTE then
      match search [u] quoted with
      | some k => (quoted.take k, k + 2)
      | none => (bare, bare.length)
    else (bare, bare.length)

/-- `\s*=\s*` and a value, and how long all that is. -/
def readAssignment (rest : Units) : Option (Units × Nat) :=
  let spaces := (rest.takeWhile isSpace).length
  match rest.drop spaces with
  | [] => none
  | u :: after =>
    if u = unit '=' then
      let gap := (after.takeWhile isSpace).length
      let read := pattern.readValue (after.drop gap)
      some (read.1, spaces + 1 + gap + read.2)
    else none

def readAttribute : Units → Option (Attribute × Nat)
  | [] => none
  | u :: rest =>
    if pattern.nameStart u then
      let name := u :: rest.takeWhile pattern.nameRest
      match pattern.readAssignment ((u :: rest).drop name.length) with
      | some (value, length) => some (⟨lowerCase name, value⟩, name.length + length)
      | none => some (⟨lowerCase name, []⟩, name.length)
    else none

/-- Every match, from left to right. The first units may belong to a match that is
already read, and are skipped. -/
def readAll : Nat → Units → List Attribute
  | _, [] => []
  | skip + 1, _ :: rest => readAll skip rest
  | 0, u :: rest =>
    match pattern.readAttribute (u :: rest) with
    | some (attr, length) => attr :: readAll (length - 1) rest
    | none => readAll 0 rest

/-- The pattern reads a name of lower case letters and digits to its end. -/
structure Knows : Prop where
  space : pattern.nameStart (unit ' ') = false
  start : ∀ u, 97 ≤ u && u ≤ 122 → pattern.nameStart u
  rest : ∀ u, isNameUnit u → pattern.nameRest u
  equals : pattern.nameRest (unit '=') = false

variable {pattern}

theorem readAll_skip (skip : Nat) (text : Units) :
    pattern.readAll skip text = pattern.readAll 0 (text.drop skip) := by
  induction skip generalizing text with
  | zero => rfl
  | succ skip ih =>
    cases text with
    | nil => rfl
    | cons u rest => exact ih rest

/-- A match is read, and the search goes on behind it. -/
theorem readAll_read {u : UInt16} {text : Units} {attr : Attribute} (rest : Units)
    (read : pattern.readAttribute ((u :: text) ++ rest) = some (attr, (u :: text).length)) :
    pattern.readAll 0 ((u :: text) ++ rest) = attr :: pattern.readAll 0 rest := by
  rw [List.cons_append] at read ⊢
  simp [readAll, read, readAll_skip text.length]

theorem readAssignment_quoted {value : Units} (plain : DOUBLE_QUOTE ∉ value) (rest : Units) :
    pattern.readAssignment (unit '=' :: DOUBLE_QUOTE :: value ++ DOUBLE_QUOTE :: rest) =
      some (value, value.length + 3) := by
  have equals : isSpace (unit '=') = false := rfl
  have quote : isSpace DOUBLE_QUOTE = false := rfl
  simp only [readAssignment, List.cons_append, List.takeWhile_cons, equals, quote,
    Bool.false_eq_true, if_false, List.length_nil, List.drop_zero, if_true, readValue,
    decide_true, Bool.true_or, search_unit plain]
  rw [List.take_left, Nat.zero_add, Nat.add_zero, Nat.add_comm 1, Nat.add_assoc]

theorem lowerCase_name {name : Units} (plain : ∀ u ∈ name, isNameUnit u) : lowerCase name = name := by
  refine (List.map_congr_left fun u hu => ?_).trans (List.map_id name)
  have same := Tokenizer.named_of_isNameUnit (plain u hu)
  have shown_ : u ≠ 0 := isNameUnit_ne (plain u hu) (by decide)
  simpa [Tokenizer.named, Tokenizer.shown, shown_] using same

namespace Knows

theorem readAttribute (h : pattern.Knows) {u : UInt16} {tail value : Units}
    (name : isName (u :: tail)) (plain : DOUBLE_QUOTE ∉ value) (rest : Units) :
    pattern.readAttribute (u :: (tail ++ unit '=' :: DOUBLE_QUOTE :: value ++ DOUBLE_QUOTE :: rest)) =
      some (⟨u :: tail, value⟩, tail.length + value.length + 4) := by
  obtain ⟨first, others⟩ := Bool.and_eq_true_iff.mp name
  have run : (tail ++ unit '=' :: DOUBLE_QUOTE :: value ++ DOUBLE_QUOTE :: rest).takeWhile
      pattern.nameRest = tail := by
    rw [List.append_assoc]
    refine takeWhile_append_stop ?_ ?_
    · exact List.all_eq_true.mpr fun v hv => h.rest v (List.all_eq_true.mp others v hv)
    · intro v hv
      obtain rfl := Option.some.inj hv
      simp [h.equals]
  have behind : (u :: (tail ++ unit '=' :: DOUBLE_QUOTE :: value ++ DOUBLE_QUOTE :: rest)).drop
      (u :: tail).length = unit '=' :: DOUBLE_QUOTE :: value ++ DOUBLE_QUOTE :: rest := by
    simp
  simp only [AttributePattern.readAttribute, run, behind, if_pos (h.start u first),
    readAssignment_quoted plain, lowerCase_name (isNameUnit_of_isName name)]
  refine congrArg (fun length => some (_, length)) ?_
  simp only [List.length_cons]
  omega

/-- Attributes are read back as they were written. -/
theorem readAll (h : pattern.Knows) {attributes : List Attribute}
    (plain : ∀ attr ∈ attributes, isName attr.name ∧ DOUBLE_QUOTE ∉ attr.value) :
    pattern.readAll 0 (attributes.flatMap Attribute.write) = attributes := by
  induction attributes with
  | nil => rfl
  | cons attr rest ih =>
    obtain ⟨⟨name, value⟩, others⟩ := List.forall_mem_cons.mp plain
    obtain ⟨written, content⟩ := attr
    cases written with
    | nil => cases name
    | cons u tail =>
      have blank : ∀ text, pattern.readAll 0 (unit ' ' :: text) = pattern.readAll 0 text := by
        intro text
        simp [AttributePattern.readAll, AttributePattern.readAttribute, h.space]
      have read : pattern.readAttribute ((u :: (tail ++ unit '=' :: DOUBLE_QUOTE :: content ++
          [DOUBLE_QUOTE])) ++ rest.flatMap Attribute.write) = some (⟨u :: tail, content⟩,
            (u :: (tail ++ unit '=' :: DOUBLE_QUOTE :: content ++ [DOUBLE_QUOTE])).length) := by
        have one := h.readAttribute name value (rest.flatMap Attribute.write)
        simpa [Nat.add_assoc] using one
      have all := readAll_read (rest.flatMap Attribute.write) read
      rw [ih others] at all
      simpa [Attribute.write, blank] using all

end Knows
end AttributePattern

/-! ### The end of a tag -/

/-- Where the first `>` stands that is not quoted. The quote is the one that is open. -/
def tagEnd : Option UInt16 → Units → Option Nat
  | _, [] => none
  | some quote, u :: rest => (tagEnd (if u = quote then none else some quote) rest).map (· + 1)
  | none, u :: rest =>
    if u = DOUBLE_QUOTE || u = SINGLE_QUOTE then (tagEnd (some u) rest).map (· + 1)
    else if u = unit '>' then some 0
    else (tagEnd none rest).map (· + 1)

theorem tagEnd_quoted (quote : UInt16) (text : Units) :
    tagEnd (some quote) text =
      (search [quote] text).bind fun k => (tagEnd none (text.drop (k + 1))).map (k + 1 + ·) := by
  induction text with
  | nil => rfl
  | cons u rest ih =>
    by_cases same : u = quote
    · subst same
      simp [tagEnd, search, searchBy, Nat.add_comm 1]
    · have different : ¬ quote = u := Ne.symm same
      have shifted : search [quote] (u :: rest) = (search [quote] rest).map (· + 1) := by
        simp [search, searchBy, different]
      rw [tagEnd, if_neg same, ih, shifted]
      cases search [quote] rest with
      | none => rfl
      | some k =>
        simp only [Option.bind_some, Option.map_some, Option.map_map, List.drop_succ_cons]
        refine congrArg (Option.map · _) (funext fun n => ?_)
        simp only [Function.comp_apply]
        omega

/-- What is neither a quote nor a `>` is passed over. -/
theorem tagEnd_plain {run : Units} (plain : ∀ u ∈ run, u ≠ DOUBLE_QUOTE ∧ u ≠ SINGLE_QUOTE ∧
    u ≠ unit '>') (rest : Units) :
    tagEnd none (run ++ rest) = (tagEnd none rest).map (run.length + ·) := by
  induction run with
  | nil => simp
  | cons u run ih =>
    obtain ⟨⟨double, single, gt⟩, others⟩ := List.forall_mem_cons.mp plain
    rw [List.cons_append, tagEnd, if_neg (by simp [double, single]), if_neg gt, ih others,
      Option.map_map]
    refine congrArg (Option.map · _) (funext fun n => ?_)
    simp only [Function.comp_apply, List.length_cons]
    omega

theorem tagEnd_attribute {attr : Attribute} (name : isName attr.name)
    (value : DOUBLE_QUOTE ∉ attr.value) (rest : Units) :
    tagEnd none (attr.write ++ rest) = (tagEnd none rest).map (attr.write.length + ·) := by
  have plain : ∀ u ∈ unit ' ' :: attr.name ++ [unit '='], u ≠ DOUBLE_QUOTE ∧ u ≠ SINGLE_QUOTE ∧
      u ≠ unit '>' := by
    intro u member
    rcases List.mem_append.mp member with front | last
    · rcases List.mem_cons.mp front with rfl | inside
      · decide
      · have part := isNameUnit_of_isName name u inside
        exact ⟨isNameUnit_ne part (by decide), isNameUnit_ne part (by decide),
          isNameUnit_ne part (by decide)⟩
    · obtain rfl := List.mem_singleton.mp last
      decide
  have written : attr.write ++ rest = (unit ' ' :: attr.name ++ [unit '=']) ++
      DOUBLE_QUOTE :: (attr.value ++ DOUBLE_QUOTE :: rest) := by
    simp [Attribute.write]
  rw [written, tagEnd_plain plain, tagEnd, if_pos (by decide), tagEnd_quoted, search_unit value]
  simp only [Option.bind_some, Option.map_map]
  rw [show (attr.value ++ DOUBLE_QUOTE :: rest).drop (attr.value.length + 1) = rest by simp]
  refine congrArg (Option.map · _) (funext fun n => ?_)
  simp only [Function.comp_apply, Attribute.write, List.length_append, List.length_cons,
    List.length_nil]
  omega

/-- The text of a tag, from its `<` to its `>`. -/
def tagText (closing : Bool) (name : Units) (attributes : List Attribute) : Units :=
  unit '<' :: (if closing then [unit '/'] else []) ++ name ++ attributes.flatMap Attribute.write ++
    [unit '>']

/-- The text of attributes does not end with a slash. -/
theorem getLast?_attributes (attributes : List Attribute) :
    (attributes.flatMap Attribute.write).getLast? ≠ some (unit '/') := by
  rcases List.eq_nil_or_concat attributes with rfl | ⟨front, last, rfl⟩
  · simp
  · have ends : (front.concat last).flatMap Attribute.write = (front.flatMap Attribute.write ++
        unit ' ' :: last.name ++ unit '=' :: DOUBLE_QUOTE :: last.value) ++ [DOUBLE_QUOTE] := by
      simp [Attribute.write]
    rw [ends, List.getLast?_concat]
    decide

/-- A written tag ends where it was meant to. -/
theorem tagEnd_attributes {attributes : List Attribute}
    (plain : ∀ attr ∈ attributes, isName attr.name ∧ DOUBLE_QUOTE ∉ attr.value) (rest : Units) :
    tagEnd none (attributes.flatMap Attribute.write ++ unit '>' :: rest) =
      some (attributes.flatMap Attribute.write).length := by
  induction attributes with
  | nil => rfl
  | cons attr others ih =>
    obtain ⟨⟨name, value⟩, more⟩ := List.forall_mem_cons.mp plain
    rw [List.flatMap_cons, List.append_assoc, tagEnd_attribute name value, ih more]
    simp

/-- The text of a tag between its angle brackets. -/
def tagInner (closing : Bool) (name : Units) (attributes : List Attribute) : Units :=
  (if closing then [unit '/'] else []) ++ name ++ attributes.flatMap Attribute.write

theorem tagText_eq (closing : Bool) (name : Units) (attributes : List Attribute) :
    tagText closing name attributes =
      [unit '<'] ++ (tagInner closing name attributes ++ [unit '>']) := by
  simp [tagText, tagInner]

theorem tagEnd_tagInner {closing : Bool} {name : Units} {attributes : List Attribute}
    (named : isName name)
    (plain : ∀ attr ∈ attributes, isName attr.name ∧ DOUBLE_QUOTE ∉ attr.value) (rest : Units) :
    tagEnd none (tagInner closing name attributes ++ unit '>' :: rest) =
      some (tagInner closing name attributes).length := by
  have front : ∀ u ∈ (if closing then [unit '/'] else []) ++ name,
      u ≠ DOUBLE_QUOTE ∧ u ≠ SINGLE_QUOTE ∧ u ≠ unit '>' := by
    intro u member
    rcases List.mem_append.mp member with mark | inside
    · cases closing with
      | true =>
        obtain rfl := List.mem_singleton.mp mark
        decide
      | false => cases mark
    · have part := isNameUnit_of_isName named u inside
      exact ⟨isNameUnit_ne part (by decide), isNameUnit_ne part (by decide),
        isNameUnit_ne part (by decide)⟩
  rw [tagInner, List.append_assoc, tagEnd_plain front, tagEnd_attributes plain, Option.map_some,
    ← List.length_append]

/-- Behind the name of a written tag comes a space or its end. -/
theorem head?_attributes {attributes : List Attribute} {rest : Units} {u : UInt16}
    (h : u ∈ (attributes.flatMap Attribute.write ++ unit '>' :: rest).head?) :
    u = unit ' ' ∨ u = unit '>' := by
  cases attributes with
  | nil => exact Or.inr (Option.some.inj h).symm
  | cons attr others => exact Or.inl (Option.some.inj h).symm

end Html
