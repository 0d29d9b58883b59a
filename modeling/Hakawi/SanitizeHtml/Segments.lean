import Hakawi.SanitizeHtml.Rereading

/-!
# The parts of an input

An input is text and markup: tags, comments, CDATA sections, declarations, and
the elements that go with everything inside them. Where a part ends is told from
the rest of the input alone. A part that is not ended reaches to the end of the
input, except for a tag: without its `>` it is text.
-/

namespace SanitizeHtml

open Html

inductive Markup where
  | tag
  | comment
  | cdata
  | declaration
  | dropped
  deriving DecidableEq

inductive Segment where
  | text (run : Units)
  | markup (kind : Markup) (written : Units)
  deriving DecidableEq

/-- The length up to and with the first `stop`, or the whole one. -/
def lengthTo (stop text : Units) : Nat := (search stop text).elim text.length (· + stop.length)

/-- A tag has a letter behind its `<` or `</`, and ends with the first `>` outside of quotes. -/
def tagLength (text : Units) : Option Nat :=
  let index := if units "</" <+: text then 2 else 1
  match text.drop index with
  | [] => none
  | u :: rest => if isLetter u then (tagEnd none rest).map (index + 2 + ·) else none

def openedName (text : Units) : Units := lowerCase ((text.drop 1).takeWhile isNameRest)

/-- The content of a dropped element and its end tag. Elements of its name count inside it. -/
def droppedLength (name : Units) : Nat → Units → Nat
  | _, [] => 0
  | inner, u :: rest =>
    if namesElement (units "</") name (u :: rest) then
      if inner = 0 then
        let behind := (u :: rest).drop (2 + name.length)
        2 + name.length + (tagEnd none behind).elim behind.length (· + 1)
      else droppedLength name (inner - 1) rest + 1
    else if namesElement (units "<") name (u :: rest) then droppedLength name (inner + 1) rest + 1
    else droppedLength name inner rest + 1

/-- The markup that a text starts with, and its length. -/
def markup (text : Units) : Option (Markup × Nat) :=
  if units "<!--" <+: text then some (.comment, 4 + lengthTo (units "-->") (text.drop 4))
  else if units "<![CDATA[" <+: text then some (.cdata, 9 + lengthTo (units "]]>") (text.drop 9))
  else if units "<!" <+: text ∨ units "<?" <+: text then
    some (.declaration, lengthTo (units ">") text)
  else if units "<" <+: text then
    (tagLength text).map fun length =>
      if openedName text ∈ DROPPED_WITH_CONTENT then
        (.dropped, length + droppedLength (openedName text) 0 (text.drop length))
      else (.tag, length)
  else none

/-- The text that was read since the last markup. -/
def textRun (run : Units) : List Segment := if run = [] then [] else [.text run]

/-- The parts of a text behind a run of text. The first units may belong to markup
that is already read, and are skipped. -/
def segmentsFrom : Nat → Units → Units → List Segment
  | _, run, [] => textRun run
  | skip + 1, run, _ :: rest => segmentsFrom skip run rest
  | 0, run, u :: rest =>
    match markup (u :: rest) with
    | some (kind, length) =>
      textRun run ++ .markup kind ((u :: rest).take length) :: segmentsFrom (length - 1) [] rest
    | none => segmentsFrom 0 (run ++ [u]) rest

def segments (input : Units) : List Segment := segmentsFrom 0 [] input

def Segment.written : Segment → Units
  | .text run => run
  | .markup _ written => written

/-- What is read of a segment as text. -/
def Segment.content : Segment → Units
  | .text run => run
  | .markup _ _ => []

example : segments (units "a < b<!-- c --><b>d</b") =
    [.text (units "a < b"), .markup .comment (units "<!-- c -->"), .markup .tag (units "<b>"),
      .text (units "d</b")] := by
  decide

section Lengths

theorem tagEnd_le {quote : Option UInt16} {text : Units} {k : Nat} (h : tagEnd quote text = some k) :
    k < text.length := by
  induction text generalizing quote k with
  | nil => simp [tagEnd] at h
  | cons u rest ih =>
    have shifted : ∀ state, (tagEnd state rest).map (· + 1) = some k → k < (u :: rest).length := by
      intro state read
      obtain ⟨j, found, rfl⟩ := Option.map_eq_some_iff.mp read
      exact Nat.succ_lt_succ (ih found)
    cases quote with
    | some open_ => exact shifted _ h
    | none =>
      simp only [tagEnd] at h
      split at h
      · exact shifted _ h
      · split at h
        · obtain rfl := Option.some.inj h
          exact Nat.zero_lt_succ _
        · exact shifted _ h

theorem lengthTo_pos {stop text : Units} (some_ : stop ≠ []) (nonempty : text ≠ []) :
    0 < lengthTo stop text := by
  unfold lengthTo
  cases search stop text with
  | none => exact List.length_pos_iff.mpr nonempty
  | some k => exact Nat.add_pos_right _ (List.length_pos_iff.mpr some_)

theorem tagLength_spec {text : Units} {length : Nat} (h : tagLength text = some length) :
    0 < length ∧ length ≤ text.length := by
  have read : ∀ index, (match text.drop index with
      | [] => none
      | u :: rest => if isLetter u then (tagEnd none rest).map (index + 2 + ·) else none) = some length →
        0 < length ∧ length ≤ text.length := by
    intro index found
    cases behind : text.drop index with
    | nil =>
      rw [behind] at found
      cases found
    | cons u rest =>
      rw [behind] at found
      obtain ⟨-, found⟩ := Option.ite_none_right_eq_some.mp found
      obtain ⟨k, ends, rfl⟩ := Option.map_eq_some_iff.mp found
      have within := tagEnd_le ends
      have whole := congrArg List.length behind
      rw [List.length_drop, List.length_cons] at whole
      omega
  exact read _ h

theorem markup_pos {text : Units} {kind : Markup} {length : Nat}
    (h : markup text = some (kind, length)) : 0 < length := by
  unfold markup at h
  split at h
  · obtain ⟨-, rfl⟩ := Prod.mk.inj (Option.some.inj h)
    exact Nat.add_pos_left (by decide) _
  · split at h
    · obtain ⟨-, rfl⟩ := Prod.mk.inj (Option.some.inj h)
      exact Nat.add_pos_left (by decide) _
    · split at h
      · rename_i starts
        obtain ⟨-, rfl⟩ := Prod.mk.inj (Option.some.inj h)
        refine lengthTo_pos (by decide) ?_
        rintro rfl
        revert starts
        decide
      · split at h
        · obtain ⟨read, found, same⟩ := Option.map_eq_some_iff.mp h
          have positive := (tagLength_spec found).1
          split at same
          · obtain ⟨-, rfl⟩ := Prod.mk.inj same
            exact Nat.add_pos_left positive _
          · obtain ⟨-, rfl⟩ := Prod.mk.inj same
            exact positive
        · cases h

end Lengths

theorem segmentsFrom_skip (skip : Nat) (run text : Units) :
    segmentsFrom skip run text = segmentsFrom 0 run (text.drop skip) := by
  induction text generalizing skip with
  | nil => cases skip <;> rfl
  | cons u rest ih =>
    cases skip with
    | zero => rfl
    | succ skip => exact ih skip

theorem textRun_written (run : Units) : (textRun run).flatMap Segment.written = run := by
  unfold textRun
  split <;> simp [Segment.written, *]

/-- The parts make up the input. -/
theorem segmentsFrom_written (skip : Nat) (run text : Units) :
    (segmentsFrom skip run text).flatMap Segment.written = run ++ text.drop skip := by
  induction text generalizing skip run with
  | nil => cases skip <;> simp [segmentsFrom, textRun_written]
  | cons u rest ih =>
    cases skip with
    | succ skip => exact ih skip run
    | zero =>
      rw [segmentsFrom]
      cases found : markup (u :: rest) with
      | none => simp [ih]
      | some read =>
        obtain ⟨kind, length⟩ := read
        obtain ⟨length, rfl⟩ := Nat.exists_eq_succ_of_ne_zero (markup_pos found).ne'
        simp [ih, textRun_written, Segment.written]

/-- Markup starts with a `<`. -/
theorem markup_other {u : UInt16} (other : u ≠ unit '<') (rest : Units) :
    markup (u :: rest) = none := by
  have starts : ∀ needle : Units, needle.head? = some (unit '<') → ¬ needle <+: u :: rest := by
    intro needle first h
    obtain ⟨tail, rfl⟩ := List.head?_eq_some_iff.mp first
    exact other (List.cons_prefix_cons.mp h).1.symm
  rw [markup, if_neg (starts _ rfl), if_neg (starts _ rfl),
    if_neg (not_or.mpr ⟨starts _ rfl, starts _ rfl⟩), if_neg (starts _ rfl)]

theorem segmentsFrom_plain {before : Units} (plain : unit '<' ∉ before) (run rest : Units) :
    segmentsFrom 0 run (before ++ rest) = segmentsFrom 0 (run ++ before) rest := by
  induction before generalizing run with
  | nil => simp
  | cons u before ih =>
    obtain ⟨other, others⟩ := List.ne_and_not_mem_of_not_mem_cons plain
    rw [List.cons_append, segmentsFrom, markup_other other.symm]
    simpa using ih others (run ++ [u])

section Dropped
variable {name : Units}

theorem namesElement_text {opening text : Units} (h : namesElement opening name text) :
    opening ++ name <+: lowerCase text := by
  have same : lowerCase (text.take (opening ++ name).length) = opening ++ name :=
    of_decide_eq_true (Bool.and_eq_true_iff.mp h).1
  rw [← same, lowerCase, lowerCase, List.map_take]
  exact List.take_prefix _ _

theorem namesElement_length {opening text : Units} (h : namesElement opening name text) :
    opening.length + name.length ≤ text.length := by
  have within := (namesElement_text h).length_le
  rw [lowerCase, List.length_map, List.length_append] at within
  exact within

theorem namesElement_start {opening text : Units} {u : UInt16} (first : opening.head? = some (unit '<'))
    (h : namesElement opening name (u :: text)) : u = unit '<' := by
  obtain ⟨tail, rfl⟩ := List.head?_eq_some_iff.mp first
  obtain ⟨same, -⟩ := List.cons_prefix_cons.mp (namesElement_text h)
  dsimp only at same
  split at same
  · rename_i capital
    simp only [Bool.and_eq_true, decide_eq_true_eq, UInt16.le_iff_toNat_le] at capital
    have value := congrArg UInt16.toNat same
    have bounds : (65 : UInt16).toNat = 65 ∧ (90 : UInt16).toNat = 90 ∧ (32 : UInt16).toNat = 32 ∧
      (unit '<').toNat = 60 := by decide
    rw [UInt16.toNat_add] at value
    omega
  · exact same.symm

/-- What names no element is passed over. -/
theorem droppedLength_plain {text : Units} {k : Nat} (within : k ≤ text.length) (inner : Nat)
    (plain : ∀ j < k, namesElement (units "</") name (text.drop j) = false ∧
      namesElement (units "<") name (text.drop j) = false) :
    droppedLength name inner text = k + droppedLength name inner (text.drop k) := by
  induction k generalizing text with
  | zero => simp
  | succ k ih =>
    cases text with
    | nil => cases within
    | cons u rest =>
      obtain ⟨close, opens⟩ := plain 0 (Nat.zero_lt_succ k)
      rw [List.drop_zero] at close opens
      have further := ih (Nat.le_of_succ_le_succ within) fun j before =>
        plain (j + 1) (Nat.succ_lt_succ before)
      rw [droppedLength, close, opens, if_neg Bool.false_ne_true, if_neg Bool.false_ne_true, further,
        List.drop_succ_cons]
      omega

/-- Without an end tag everything is passed over. -/
theorem droppedLength_open {text : Units}
    (never : ∀ j ≤ text.length, namesElement (units "</") name (text.drop j) = false) (inner : Nat) :
    droppedLength name inner text = text.length := by
  induction text generalizing inner with
  | nil => rfl
  | cons u rest ih =>
    have close := never 0 (Nat.zero_le _)
    rw [List.drop_zero] at close
    have others := ih fun j within => never (j + 1) (Nat.succ_le_succ within)
    rw [droppedLength, close, if_neg Bool.false_ne_true]
    split <;> rw [others, List.length_cons]

/-- Inside the text of an end tag nothing else is named. -/
theorem namesElement_inside {text : Units} (lt : unit '<' ∉ name)
    (h : namesElement (units "</") name text) {j : Nat} (behind : 0 < j) (within : j < 2 + name.length)
    {opening : Units} (first : opening.head? = some (unit '<')) :
    namesElement opening name (text.drop j) = false := by
  by_contra other
  obtain ⟨rest, whole⟩ := namesElement_text h
  have bound := namesElement_length h
  cases starts : text.drop j with
  | nil =>
    have short := List.drop_eq_nil_iff.mp starts
    rw [show (units "</").length = 2 from rfl] at bound
    omega
  | cons u tail =>
    rw [starts] at other
    obtain rfl := namesElement_start first (eq_true_of_ne_false other)
    have here : text[j]? = some (unit '<') := by
      rw [← Nat.add_zero j, getElem?_of_drop starts]
      rfl
    have lowered : (units "</" ++ name ++ rest)[j]? = some (unit '<') := by
      rw [whole, lowerCase, List.getElem?_map, here]
      rfl
    obtain ⟨i, rfl⟩ := Nat.exists_eq_succ_of_ne_zero behind.ne'
    have inside : (unit '/' :: name ++ rest)[i]? = some (unit '<') := lowered
    rw [List.getElem?_append_left (by rw [List.length_cons]; omega)] at inside
    rcases List.mem_cons.mp (List.mem_of_getElem? inside) with same | member
    · exact absurd same (by decide)
    · exact lt member

theorem droppedLength_close {text : Units} (h : namesElement (units "</") name text) (inner : Nat) :
    droppedLength name inner text =
      if inner = 0 then 2 + name.length +
        (tagEnd none (text.drop (2 + name.length))).elim (text.drop (2 + name.length)).length (· + 1)
      else droppedLength name (inner - 1) (text.drop 1) + 1 := by
  cases text with
  | nil =>
    have bound := namesElement_length h
    rw [show (units "</").length = 2 from rfl, List.length_nil] at bound
    omega
  | cons u rest =>
    rw [droppedLength, if_pos h]
    rfl

theorem droppedLength_opens {text : Units} (close : namesElement (units "</") name text = false)
    (h : namesElement (units "<") name text) (inner : Nat) :
    droppedLength name inner text = droppedLength name (inner + 1) (text.drop 1) + 1 := by
  cases text with
  | nil =>
    have bound := namesElement_length h
    rw [show (units "<").length = 1 from rfl, List.length_nil] at bound
    omega
  | cons u rest =>
    rw [droppedLength, close, if_neg Bool.false_ne_true, if_pos h]
    rfl

theorem endTag_room {source : Units} {cursor close : Nat}
    (found : searchBy (namesElement (units "</") name) (source.drop cursor) = some close) :
    cursor + close + 2 + name.length ≤ source.length := by
  have bound := namesElement_length (searchBy_spec found).1
  rw [show (units "</").length = 2 from rfl, List.length_drop, List.length_drop] at bound
  omega

/-- Without a start tag in front of it, nothing stands before the first end tag. -/
theorem plain_before {text : Units} {close : Nat}
    (found : searchBy (namesElement (units "</") name) text = some close)
    (none_ : (searchBy (namesElement (units "<") name) text).filter (· < close) = none) :
    ∀ j < close, namesElement (units "</") name (text.drop j) = false ∧
      namesElement (units "<") name (text.drop j) = false := by
  intro j before
  refine ⟨searchBy_first found j before, ?_⟩
  have bound := (searchBy_spec found).2
  cases opened : searchBy (namesElement (units "<") name) text with
  | none => exact searchBy_none opened j (by omega)
  | some open_ =>
    have later : close ≤ open_ := by simpa [opened] using none_
    exact searchBy_first opened j (by omega)

/-- The search for the end tag of a dropped element finds where the element ends. -/
theorem matchingEnd_eq {source : Units} (lt : unit '<' ∉ name) {depth cursor : Nat}
    (positive : 0 < depth) (within : cursor ≤ source.length) :
    (matchingEnd source name depth cursor).elim source.length (fun index =>
        (Uncached.findTagEnd source index).elim source.length (· + 1)) =
      cursor + droppedLength name (depth - 1) (source.drop cursor) := by
  fun_induction matchingEnd source name depth cursor with
  | case1 depth cursor inside none_ =>
    rw [droppedLength_open (searchBy_none none_), List.length_drop, Option.elim_none]
    omega
  | case2 depth cursor inside close found open_ opens ih =>
    obtain ⟨opened, before⟩ := Option.filter_eq_some_iff.mp opens
    have earlier : open_ < close := of_decide_eq_true before
    have plain := fun j (h : j < open_) =>
      And.intro (searchBy_first found j (h.trans earlier)) (searchBy_first opened j h)
    have enough := endTag_room found
    rw [ih (Nat.succ_pos depth) (by omega),
      droppedLength_plain (by rw [List.length_drop]; omega) _ plain,
      droppedLength_opens (searchBy_first found open_ earlier) (searchBy_spec opened).1,
      List.drop_drop, List.drop_drop, Nat.sub_add_cancel positive, Nat.add_sub_cancel]
    simp only [Nat.add_assoc, Nat.add_comm 1]
  | case3 depth cursor inside close found none_ last =>
    have enough := endTag_room found
    rw [droppedLength_plain (by rw [List.length_drop]; omega) _ (plain_before found none_),
      droppedLength_close (searchBy_spec found).1, if_pos last, List.drop_drop, List.drop_drop,
      Option.elim_some, findTagEnd_eq]
    simp only [← Nat.add_assoc]
    cases tagEnd none (source.drop (cursor + close + 2 + name.length)) with
    | none =>
      simp only [Option.map_none, Option.elim_none, List.length_drop]
      omega
    | some k =>
      simp only [Option.map_some, Option.elim_some]
      omega
  | case4 depth cursor inside close found none_ more ih =>
    have enough := endTag_room found
    have ended := (searchBy_spec found).1
    have behind : ∀ j < 1 + name.length,
        namesElement (units "</") name (((source.drop cursor).drop (close + 1)).drop j) = false ∧
          namesElement (units "<") name (((source.drop cursor).drop (close + 1)).drop j) = false := by
      intro j before
      rw [← List.drop_drop, List.drop_drop]
      exact ⟨namesElement_inside lt ended (by omega) (by omega) rfl,
        namesElement_inside lt ended (by omega) (by omega) rfl⟩
    rw [ih (by omega) (by omega), droppedLength_plain (by rw [List.length_drop]; omega) _
      (plain_before found none_), droppedLength_close ended, if_neg more, List.drop_drop,
      droppedLength_plain (by simp only [List.length_drop]; omega) _ behind, List.drop_drop,
      List.drop_drop, show cursor + (close + 1 + (1 + name.length)) = cursor + close + 2 + name.length by
        omega]
    omega
  | case5 depth cursor beyond =>
    rw [List.drop_eq_nil_of_le (Nat.le_of_not_lt beyond), droppedLength, Option.elim_none]
    omega

end Dropped

section Positions
variable {source tail text : Units} {position : Nat}

theorem indexOf_lengthTo (h : source.drop position = text) (stop : Units) {start : Nat}
    (within : position + start ≤ source.length) :
    (indexOf source stop (position + start)).elim source.length (· + stop.length) =
      position + (start + lengthTo stop (text.drop start)) := by
  rw [← h, List.drop_drop]
  unfold indexOf lengthTo
  cases search stop (source.drop (position + start)) with
  | none =>
    simp only [Option.map_none, Option.elim_none, List.length_drop]
    omega
  | some k =>
    simp only [Option.map_some, Option.elim_some]
    omega

theorem room_behind (h : source.drop position = unit '<' :: tail) {needle : Units}
    (starts : needle <+: unit '<' :: tail) : position + needle.length ≤ source.length := by
  have within := starts.length_le
  have whole := congrArg List.length h
  rw [List.length_drop, List.length_cons] at whole
  rw [List.length_cons] at within
  omega

/-- Comments, CDATA sections and declarations are skipped as the markup that they are. -/
theorem skipDeclaration_eq (h : source.drop position = unit '<' :: tail) :
    skipDeclaration source position =
      if units "<!--" <+: unit '<' :: tail ∨ units "<![CDATA[" <+: unit '<' :: tail ∨
        units "<!" <+: unit '<' :: tail ∨ units "<?" <+: unit '<' :: tail then
        (markup (unit '<' :: tail)).map (position + ·.2)
      else none := by
  have second : ∀ u, source[position + 1]? = some u ↔ [unit '<', u] <+: unit '<' :: tail := by
    intro u
    rw [getElem?_of_drop h]
    cases tail with
    | nil => simp
    | cons v tail => simp [eq_comm]
  unfold skipDeclaration markup
  simp only [startsWith, h, decide_eq_true_eq, second]
  by_cases comment : units "<!--" <+: unit '<' :: tail
  · rw [if_pos comment, if_pos (Or.inl comment), if_pos comment, Option.map_some]
    exact congrArg some (indexOf_lengthTo h (units "-->") (room_behind h comment))
  · rw [if_neg comment, if_neg comment]
    by_cases cdata : units "<![CDATA[" <+: unit '<' :: tail
    · rw [if_pos cdata, if_pos (Or.inr (Or.inl cdata)), if_pos cdata, Option.map_some]
      exact congrArg some (indexOf_lengthTo h (units "]]>") (room_behind h cdata))
    · rw [if_neg cdata, if_neg cdata]
      by_cases declaration : units "<!" <+: unit '<' :: tail ∨ units "<?" <+: unit '<' :: tail
      · have room : position + 0 ≤ source.length := by
          rcases declaration with starts | starts
          · exact Nat.le_of_add_right_le (room_behind h starts)
          · exact Nat.le_of_add_right_le (room_behind h starts)
        have found := indexOf_lengthTo h (units ">") room
        rw [Nat.zero_add, List.drop_zero, Nat.add_zero] at found
        rw [if_pos (Or.inr (Or.inr declaration)), if_pos declaration, Option.map_some]
        exact (if_pos declaration).trans (congrArg some found)
      · rw [if_neg (by tauto)]
        exact (if_neg (by tauto)).symm

theorem isNameRest_of_isLetter {u : UInt16} (letter : isLetter u) : isNameRest u := by
  simp [isNameRest, isAlphanumeric, letter]

/-- No unit of a name is a quote or a `>`. -/
theorem isNameRest_plain {u : UInt16} (h : isNameRest u) :
    u ≠ DOUBLE_QUOTE ∧ u ≠ SINGLE_QUOTE ∧ u ≠ unit '>' := by
  refine ⟨?_, ?_, ?_⟩ <;> rintro rfl <;> exact absurd h (by decide)

theorem findTagEnd_name {index : Nat} {u : UInt16} {rest : Units} (h : source.drop index = u :: rest) :
    Uncached.findTagEnd source (index + (u :: rest.takeWhile isNameRest).length) =
      (tagEnd none rest).map (index + 1 + ·) := by
  have plain : ∀ v ∈ rest.takeWhile isNameRest, v ≠ DOUBLE_QUOTE ∧ v ≠ SINGLE_QUOTE ∧ v ≠ unit '>' :=
    fun v member => isNameRest_plain (List.mem_takeWhile_imp member)
  have parts := List.takeWhile_append_dropWhile (p := isNameRest) (l := rest)
  have behind : source.drop (index + (u :: rest.takeWhile isNameRest).length) =
      rest.dropWhile isNameRest := by
    have whole : source.drop index =
        (u :: rest.takeWhile isNameRest) ++ rest.dropWhile isNameRest := by
      rw [h, List.cons_append, parts]
    exact drop_behind whole
  rw [findTagEnd_eq, behind]
  conv_rhs => rw [← parts, tagEnd_plain plain, Option.map_map]
  refine congrArg (Option.map · _) (funext fun n => ?_)
  simp only [Function.comp_apply, List.length_cons]
  omega

/-- The tag that is read is the one that stands there. -/
theorem readTag_eq (h : source.drop position = unit '<' :: tail) :
    match tagLength (unit '<' :: tail) with
    | none => Uncached.readTag source position = none
    | some length => ∃ tag, Uncached.readTag source position = some tag ∧
        tag.stop + 1 = position + length ∧
          (dropsContent tag ↔ openedName (unit '<' :: tail) ∈ DROPPED_WITH_CONTENT) ∧
            (dropsContent tag → tag.name = openedName (unit '<' :: tail)) := by
  have closing : isClosing source position = decide (units "</" <+: unit '<' :: tail) := by
    unfold isClosing
    rw [getElem?_of_drop h]
    cases tail with
    | nil => simp [units]
    | cons v tail => simp [units, unit, eq_comm]
  have index : position + 1 + (isClosing source position).toNat =
      position + if units "</" <+: unit '<' :: tail then 2 else 1 := by
    rw [closing]
    split <;> simp [*]
  have start : source.drop (position + 1 + (isClosing source position).toNat) =
      (unit '<' :: tail).drop (if units "</" <+: unit '<' :: tail then 2 else 1) := by
    rw [index, ← h, List.drop_drop]
  unfold Uncached.readTag tagLength TAG_NAME_PATTERN
  simp only [start]
  cases behind : (unit '<' :: tail).drop (if units "</" <+: unit '<' :: tail then 2 else 1) with
  | nil => rfl
  | cons u rest =>
    by_cases letter : isLetter u
    · have ends := findTagEnd_name (start.trans behind)
      simp only [if_pos letter, ends]
      cases found : tagEnd none rest with
      | none => rfl
      | some k =>
        refine ⟨_, rfl, ?_, ?_⟩
        · simp only [parseTag]
          omega
        by_cases closes : units "</" <+: unit '<' :: tail
        · -- an end tag opens nothing
          have nameless : openedName (unit '<' :: tail) = [] := by
            obtain ⟨others, same⟩ := closes
            obtain rfl : unit '/' :: others = tail := (List.cons.inj same).2
            rfl
          have shut : dropsContent (parseTag source position (u :: rest.takeWhile isNameRest)
              (position + 1 + (isClosing source position).toNat + 1 + k)) = false := by
            simp [dropsContent, parseTag, closing, closes]
          rw [shut, nameless]
          exact ⟨by decide, by simp⟩
        · rw [if_neg closes, List.drop_succ_cons, List.drop_zero] at behind
          have same : openedName (unit '<' :: tail) = lowerCase (u :: rest.takeWhile isNameRest) := by
            rw [openedName, List.drop_succ_cons, List.drop_zero, behind, List.takeWhile_cons,
              if_pos (isNameRest_of_isLetter letter)]
          have apart : ∀ name ∈ DROPPED_WITH_CONTENT, name ∉ DROPPED_VOID_TAGS := by decide
          rw [same]
          refine ⟨?_, fun _ => rfl⟩
          simp only [dropsContent, parseTag, closing, closes, decide_false, Bool.not_false,
            Bool.and_true, Bool.and_eq_true, decide_eq_true_eq]
          exact ⟨And.right, fun member => ⟨apart _ member, member⟩⟩
    · simp only [if_neg letter]

theorem skipDroppedElement_eq {name : Units} (lt : unit '<' ∉ name) {start : Nat}
    (within : start ≤ source.length) :
    Uncached.skipDroppedElement source start name =
      start + droppedLength name 0 (source.drop start) := by
  rw [← matchingEnd_eq lt Nat.one_pos within, Uncached.skipDroppedElement]
  cases matchingEnd source name 1 start <;> rfl

/-- Where the pass goes on behind a `<`, and what stands there. -/
theorem markup_eq (h : source.drop position = unit '<' :: tail) :
    (markup (unit '<' :: tail)).map (position + ·.2) =
      match skipDeclaration source position with
      | some next => some next
      | none => (Uncached.readTag source position).map (afterTag source) := by
  rw [skipDeclaration_eq h]
  by_cases declared : units "<!--" <+: unit '<' :: tail ∨ units "<![CDATA[" <+: unit '<' :: tail ∨
      units "<!" <+: unit '<' :: tail ∨ units "<?" <+: unit '<' :: tail
  · rw [if_pos declared]
    have some_ : markup (unit '<' :: tail) ≠ none := by
      intro none_
      unfold markup at none_
      split at none_
      · cases none_
      · split at none_
        · cases none_
        · split at none_
          · cases none_
          · tauto
    cases found : markup (unit '<' :: tail) with
    | none => exact absurd found some_
    | some read => rfl
  · rw [if_neg declared]
    obtain ⟨comment, cdata, declaration⟩ := not_or.mp declared |>.imp_right not_or.mp
    have opens : units "<" <+: unit '<' :: tail := ⟨tail, rfl⟩
    rw [markup, if_neg comment, if_neg cdata, if_neg declaration, if_pos opens]
    have tag := readTag_eq h
    cases found : tagLength (unit '<' :: tail) with
    | none =>
      rw [found] at tag
      rw [tag]
      rfl
    | some length =>
      rw [found] at tag
      obtain ⟨tag, read, stop, drops, named⟩ := tag
      have within := (readTag_le read).2
      rw [read, Option.map_some, Option.map_some, Option.map_some, afterTag]
      by_cases dropped : openedName (unit '<' :: tail) ∈ DROPPED_WITH_CONTENT
      · have plain : ∀ name ∈ DROPPED_WITH_CONTENT, unit '<' ∉ name := by decide
        have start : source.drop (position + length) = (unit '<' :: tail).drop length := by
          rw [← h, List.drop_drop]
        rw [if_pos dropped, if_pos (drops.mpr dropped), named (drops.mpr dropped), stop,
          skipDroppedElement_eq (plain _ dropped) (by omega), start, Nat.add_assoc]
      · rw [if_neg dropped, if_neg (mt drops.mp dropped), stop]

end Positions
end SanitizeHtml
