import Hakawi.RenderHtml.Sanitizer

/-!
# Raw text

The content of a script or a style is dropped up to its end tag. What ends the
dropping is a `<`, one unit of any kind, the name and a terminator, so a part of
the content that is like an end tag ends it too.
-/

namespace RenderHtml

open Html

/-- The scans that a pass goes through. -/
inductive Reachable (input : Units) : Scan → Prop where
  | opening : Reachable input .opening
  | step {scan : Scan} (reached : Reachable input scan) (more : scan.i < input.length) :
      Reachable input (scan.step input)

/-- The start tag of a dropped element is read, and the scan stands behind it. -/
def Opened (input name : Units) (scan : Scan) : Prop :=
  ∃ before, Reachable input before ∧ before.i < input.length ∧ before.dropping = none ∧
    before.step input = scan ∧ scan.dropping = some name

/-- The scans from there on, up to the one that the dropping ends with. -/
inductive Drops (input : Units) (scan : Scan) : Scan → Prop where
  | here : Drops input scan scan
  | step {later : Scan} (drops : Drops input scan later) (more : later.i < input.length)
      (still : later.dropping ≠ none) : Drops input scan (later.step input)

/-- `</`, the name, and a space, a slash, a `>` or the end of the input. -/
def isEndTag (input : Units) (position : Nat) (name : Units) : Bool :=
  startsWith input (units "</") position && isClosingTagFor input position name

structure FirstEndTag (input name : Units) (start position : Nat) : Prop where
  behind : start ≤ position
  ends : isEndTag input position name
  first : ∀ k, start ≤ k → k < position → isEndTag input k name = false

/-- While the content is dropped nothing is emitted, and the step that ends the dropping
stands at the first end tag of the element and goes on behind it. -/
def DroppedWhole (input name : Units) (scan : Scan) : Prop :=
  ∀ later, Drops input scan later →
    later.out = scan.out ∧ later.text = scan.text ∧ later.stack = scan.stack ∧
      (later.i < input.length → later.dropping ≠ none → (later.step input).dropping = none →
        ∃ position, FirstEndTag input name scan.i position ∧
          indexOf input (units "<") later.i = some position ∧
            findTagEnd input position (lastIndexOf (unit '>') input) = some (later.step input).i)

def DropsRawText (input : Units) : Prop :=
  ∀ name scan, Opened input name scan → DroppedWhole input name scan

/-- An end tag, or what is like one: any unit may stand behind the `<`. -/
def likeEndTag (input : Units) (position : Nat) (name : Units) : Bool :=
  input[position]? = some (unit '<') && isClosingTagFor input position name

/-- The first part of the content that is like an end tag is one, or no `>` ends it. -/
def ClosedProperly (input name : Units) (start : Nat) : Prop :=
  ∀ position, start ≤ position → likeEndTag input position name →
    (∀ k, start ≤ k → k < position → likeEndTag input k name = false) →
      findTagEnd input position (lastIndexOf (unit '>') input) ≠ none →
        startsWith input (units "</") position

section Dropping
variable {input name : Units}

theorem startsWith_head {position : Nat} (h : startsWith input (units "</") position) :
    input[position]? = some (unit '<') := by
  obtain ⟨rest, same⟩ : units "</" <+: input.drop position := of_decide_eq_true h
  rw [← Nat.add_zero position, getElem?_of_drop same.symm]
  rfl

theorem isEndTag_like {position : Nat} (h : isEndTag input position name) :
    likeEndTag input position name := by
  obtain ⟨starts, closes⟩ := Bool.and_eq_true_iff.mp h
  simp [likeEndTag, startsWith_head starts, closes]

variable (name) in
/-- The first `<` that a search finds. -/
theorem indexOf_first {start next : Nat} (found : indexOf input (units "<") start = some next) :
    start ≤ next ∧ input[next]? = some (unit '<') ∧
      ∀ k, start ≤ k → k < next → likeEndTag input k name = false := by
  obtain ⟨j, first, rfl⟩ := Option.map_eq_some_iff.mp found
  obtain ⟨before, rest, split, absent, rfl⟩ := search_unit_some (u := unit '<') first
  refine ⟨Nat.le_add_right _ _, ?_, fun k after before_ => ?_⟩
  · rw [getElem?_of_drop split, List.getElem?_append_right (le_refl _), Nat.sub_self]
    rfl
  · obtain ⟨distance, rfl⟩ := Nat.exists_eq_add_of_le after
    have other : input[start + distance]? ≠ some (unit '<') := by
      rw [getElem?_of_drop split, List.getElem?_append_left (by omega)]
      exact fun here => absent (List.mem_of_getElem? here)
    simp [likeEndTag, other]

theorem likeEndTag_lt {position : Nat} (lt : input[position]? = some (unit '<')) :
    likeEndTag input position name = isClosingTagFor input position name := by
  simp [likeEndTag, lt]

variable (input) in
/-- What a step does while content is dropped: it goes to the end, it passes a `<` that
is nothing like an end tag, or it stops behind the first part that is. -/
theorem Scan.step_dropping {scan : Scan} (dropping : scan.dropping = some name) :
    (scan.step input = { scan with i := input.length } ∧ ∀ next,
        indexOf input (units "<") scan.i = some next → likeEndTag input next name ∧
          findTagEnd input next (lastIndexOf (unit '>') input) = none) ∨
      ∃ next, indexOf input (units "<") scan.i = some next ∧
        ((likeEndTag input next name = false ∧ scan.step input = { scan with i := next + 1 }) ∨
          (likeEndTag input next name ∧ ∃ stop,
            findTagEnd input next (lastIndexOf (unit '>') input) = some stop ∧
              scan.step input = { scan with i := stop, dropping := none })) := by
  simp only [Scan.step, dropping, Scan.drop]
  cases found : indexOf input (units "<") scan.i with
  | none => exact Or.inl ⟨rfl, nofun⟩
  | some next =>
    have like : likeEndTag input next name = isClosingTagFor input next name :=
      likeEndTag_lt (indexOf_first name found).2.1
    dsimp only
    by_cases closes : isClosingTagFor input next name
    · rw [if_pos closes]
      cases ends : findTagEnd input next (lastIndexOf (unit '>') input) with
      | none =>
        refine Or.inl ⟨rfl, fun other same => ?_⟩
        obtain rfl := Option.some.inj same
        exact ⟨like.trans closes, ends⟩
      | some stop => exact Or.inr ⟨next, rfl, Or.inr ⟨like.trans closes, stop, ends, rfl⟩⟩
    · rw [if_neg closes]
      exact Or.inr ⟨next, rfl, Or.inl ⟨like.trans (eq_false_of_ne_true closes), rfl⟩⟩

/-- Up to where the scan stands there is nothing like an end tag, or it is at the end. -/
structure Dropping (input name : Units) (scan later : Scan) : Prop where
  dropping : later.dropping = some name
  behind : scan.i ≤ later.i
  passed : later.i < input.length →
    ∀ k, scan.i ≤ k → k < later.i → likeEndTag input k name = false

/-- What is passed before the next `<` is nothing like an end tag. -/
theorem Dropping.before {scan later : Scan} (h : Dropping input name scan later)
    (more : later.i < input.length) {next : Nat}
    (found : indexOf input (units "<") later.i = some next) :
    scan.i ≤ next ∧ ∀ k, scan.i ≤ k → k < next → likeEndTag input k name = false := by
  obtain ⟨further, -, between⟩ := indexOf_first name found
  refine ⟨h.behind.trans further, fun k after before => ?_⟩
  rcases Nat.lt_or_ge k later.i with passed | ahead
  · exact h.passed more k after passed
  · exact between k ahead before

theorem Drops.dropping {scan later : Scan} (opened : scan.dropping = some name)
    (h : Drops input scan later) :
    later.out = scan.out ∧ later.text = scan.text ∧ later.stack = scan.stack ∧
      (later.dropping ≠ none → Dropping input name scan later) := by
  induction h with
  | here =>
    exact ⟨rfl, rfl, rfl, fun _ => ⟨opened, le_refl _, fun _ k after before =>
      absurd before (Nat.not_lt_of_le after)⟩⟩
  | @step later drops more still ih =>
    obtain ⟨out, text, stack, phase⟩ := ih
    have here := phase still
    rcases Scan.step_dropping input here.dropping with
      ⟨step, -⟩ | ⟨next, found, ⟨other, step⟩ | ⟨-, stop, -, step⟩⟩
    · rw [step]
      exact ⟨out, text, stack, fun _ => ⟨here.dropping, here.behind.trans (Nat.le_of_lt more),
        fun beyond => absurd beyond (lt_irrefl _)⟩⟩
    · rw [step]
      obtain ⟨behind, before⟩ := here.before more found
      refine ⟨out, text, stack, fun _ => ⟨here.dropping, Nat.le_succ_of_le behind,
        fun _ k after passed => ?_⟩⟩
      rcases Nat.lt_succ_iff_lt_or_eq.mp passed with earlier | rfl
      · exact before k after earlier
      · exact other
    · rw [step]
      exact ⟨out, text, stack, fun still => absurd rfl still⟩

theorem likeEndTag_within {position : Nat} (like : likeEndTag input position name) :
    input[position]? = some (unit '<') ∧ position < input.length := by
  have lt := of_decide_eq_true (Bool.and_eq_true_iff.mp like).1
  exact ⟨lt, (List.getElem?_eq_some_iff.mp lt).1⟩

/-- The search for a `<` does not go past a part that is like an end tag. -/
theorem indexOf_like {start position : Nat} (behind : start ≤ position)
    (like : likeEndTag input position name) :
    ∃ next ≤ position, indexOf input (units "<") start = some next := by
  cases found : indexOf input (units "<") start with
  | none =>
    have absent : unit '<' ∉ input.drop start :=
      search_unit_eq_none.mp (Option.map_eq_none_iff.mp found)
    obtain ⟨distance, rfl⟩ := Nat.exists_eq_add_of_le behind
    have here := (likeEndTag_within like).1
    rw [← List.getElem?_drop] at here
    exact absurd (List.mem_of_getElem? here) absent
  | some next =>
    refine ⟨next, Nat.le_of_not_lt fun further => ?_, rfl⟩
    rw [(indexOf_first name found).2.2 position behind further] at like
    cases like

/-- The scan comes to the first part of the content that is like an end tag. -/
theorem drops_to {scan later : Scan} (drops : Drops input scan later)
    (dropping : later.dropping = some name) {position : Nat} (behind : later.i ≤ position)
    (like : likeEndTag input position name)
    (first : ∀ k, later.i ≤ k → k < position → likeEndTag input k name = false) :
    ∃ last, Drops input scan last ∧ last.dropping = some name ∧ last.i < input.length ∧
      indexOf input (units "<") last.i = some position := by
  have more : later.i < input.length := Nat.lt_of_le_of_lt behind (likeEndTag_within like).2
  obtain ⟨next, within, found⟩ := indexOf_like behind like
  rcases Nat.lt_or_eq_of_le within with earlier | rfl
  · have other := first next (indexOf_first name found).1 earlier
    have step : later.step input = { later with i := next + 1 } := by
      rcases Scan.step_dropping input dropping with
        ⟨-, ends⟩ | ⟨k, same, ⟨-, step⟩ | ⟨like, -⟩⟩
      · rw [(ends next found).1] at other
        cases other
      · obtain rfl := Option.some.inj (found.symm.trans same)
        exact step
      · obtain rfl := Option.some.inj (found.symm.trans same)
        rw [like] at other
        cases other
    have further : later.i < next + 1 := Nat.lt_succ_of_le (indexOf_first name found).1
    have moved : Drops input scan { later with i := next + 1 } :=
      step ▸ drops.step more (by simp [dropping])
    exact drops_to moved dropping earlier like fun k after before =>
      first k (Nat.le_of_lt (Nat.lt_of_lt_of_le further after)) before
  · exact ⟨later, drops, dropping, more, found⟩
termination_by position - later.i

/-- The content is dropped whole exactly if it is closed properly. -/
theorem droppedWhole_iff {scan : Scan} (opened : scan.dropping = some name) :
    DroppedWhole input name scan ↔ ClosedProperly input name scan.i := by
  constructor
  · intro whole position behind like first ends
    obtain ⟨later, drops, dropping, more, found⟩ := drops_to .here opened behind like first
    obtain ⟨-, -, -, closes⟩ := whole later drops
    have ended : (later.step input).dropping = none := by
      rcases Scan.step_dropping input dropping with
        ⟨-, never⟩ | ⟨next, same, ⟨other, -⟩ | ⟨-, stop, -, step⟩⟩
      · exact absurd (never position found).2 ends
      · obtain rfl := Option.some.inj (found.symm.trans same)
        rw [like] at other
        cases other
      · rw [step]
    obtain ⟨next, tag, same, -⟩ := closes more (by simp [dropping]) ended
    obtain rfl := Option.some.inj (found.symm.trans same)
    exact (Bool.and_eq_true_iff.mp tag.ends).1
  · intro properly later drops
    obtain ⟨out, text, stack, phase⟩ := drops.dropping opened
    refine ⟨out, text, stack, fun more still ended => ?_⟩
    have here := phase still
    rcases Scan.step_dropping input here.dropping with
      ⟨step, -⟩ | ⟨next, found, ⟨-, step⟩ | ⟨like, stop, ends, step⟩⟩
    · rw [step, here.dropping] at ended
      cases ended
    · rw [step, here.dropping] at ended
      cases ended
    · obtain ⟨behind, before⟩ := here.before more found
      have starts := properly next behind like before (by simp [ends])
      refine ⟨next, ⟨behind, ?_, fun k after earlier => ?_⟩, found, by rw [ends, step]⟩
      · exact Bool.and_eq_true_iff.mpr ⟨starts, (Bool.and_eq_true_iff.mp like).2⟩
      · by_contra other
        have here := isEndTag_like (eq_true_of_ne_false other)
        rw [before k after earlier] at here
        cases here

end Dropping

/-- Raw text is dropped whole in exactly those inputs whose raw texts are all closed properly. -/
theorem dropsRawText_iff (input : Units) : DropsRawText input ↔
    ∀ name scan, Opened input name scan → ClosedProperly input name scan.i := by
  have each : ∀ name scan, Opened input name scan →
      (DroppedWhole input name scan ↔ ClosedProperly input name scan.i) := by
    rintro name scan ⟨-, -, -, -, -, dropping⟩
    exact droppedWhole_iff dropping
  exact forall₂_congr fun name scan => forall_congr' (each name scan)

/-- A tag whose name only ends like the one of the element ends the dropping, and what
is behind it gets out. -/
theorem not_dropsRawText : ¬ DropsRawText (units "<script>a<xscript>b</script>") := by
  intro drops
  have opened : Opened (units "<script>a<xscript>b</script>") (units "script")
      (Scan.opening.step (units "<script>a<xscript>b</script>")) :=
    ⟨_, .opening, by decide, rfl, rfl, by decide⟩
  obtain ⟨-, -, -, closes⟩ := drops _ _ opened _ .here
  obtain ⟨position, tag, found, -⟩ := closes (by decide) (by decide) (by decide)
  have there : indexOf (units "<script>a<xscript>b</script>") (units "<")
      (Scan.opening.step (units "<script>a<xscript>b</script>")).i = some 9 := by
    decide
  obtain rfl := Option.some.inj (there.symm.trans found)
  exact absurd tag.ends (by decide)

example : sanitizeHtml (units "<script>a<xscript>b</script>") = units "b" := by
  decide +kernel

end RenderHtml
