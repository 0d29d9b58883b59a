import Hakawi.Stories.Slugs
import Mathlib.Algebra.Group.Nat.Defs
import Mathlib.Data.List.Chain
import Mathlib.Data.List.Nodup

/-!
# The shape of a slug

A derived slug is words of lower-case letters and digits with single hyphens between
them. What Unicode makes of a title is left open; only a text that has this shape
already is assumed to be left alone.
-/

namespace Stories
open Html Common

/-- `[a-z0-9]+(-[a-z0-9]+)*` -/
inductive Slugged : Units → Prop where
  | word {word : Units} (nonempty : word ≠ []) (letters : ∀ u ∈ word, isSlugLetter u) :
      Slugged word
  | more {word rest : Units} (nonempty : word ≠ []) (letters : ∀ u ∈ word, isSlugLetter u)
      (others : Slugged rest) : Slugged (word ++ HYPHEN :: rest)

/-- Two hyphens do not follow each other. -/
def Spaced (u v : UInt16) : Prop := ¬ (u = HYPHEN ∧ v = HYPHEN)

theorem hyphen_not_letter : isSlugLetter HYPHEN = false := by decide

namespace Slugged
variable {text : Units}

theorem cons {u : UInt16} (letter : isSlugLetter u) (slugged : Slugged text) :
    Slugged (u :: text) := by
  cases slugged with
  | word nonempty letters =>
    exact .word (List.cons_ne_nil _ _) (List.forall_mem_cons.mpr ⟨letter, letters⟩)
  | @more word rest nonempty letters others =>
    rw [← List.cons_append]
    exact .more (List.cons_ne_nil _ _) (List.forall_mem_cons.mpr ⟨letter, letters⟩) others

theorem append {word : Units} (slugged : Slugged text) (nonempty : word ≠ [])
    (letters : ∀ u ∈ word, isSlugLetter u) : Slugged (text ++ HYPHEN :: word) := by
  induction slugged with
  | word filled own => exact .more filled own (.word nonempty letters)
  | more filled own _ ih =>
    rw [List.append_assoc, List.cons_append]
    exact .more filled own ih

theorem nonempty (slugged : Slugged text) : text ≠ [] := by
  cases slugged with
  | word filled _ => exact filled
  | more filled _ _ => exact fun empty => filled (List.append_eq_nil_iff.mp empty).1

theorem letters (slugged : Slugged text) : ∀ u ∈ text, isSlugLetter u ∨ u = HYPHEN := by
  induction slugged with
  | word _ own => exact fun u member => Or.inl (own u member)
  | more _ own _ ih =>
    intro u member
    rcases List.mem_append.mp member with inside | behind
    · exact Or.inl (own u inside)
    · rcases List.mem_cons.mp behind with hyphen | later
      · exact Or.inr hyphen
      · exact ih u later

theorem head (slugged : Slugged text) : ∀ u ∈ text.head?, isSlugLetter u := by
  intro u first
  cases slugged with
  | word _ own => exact own u (List.mem_of_mem_head? first)
  | @more word _ filled own _ =>
    rw [List.head?_append_of_ne_nil _ filled] at first
    exact own u (List.mem_of_mem_head? first)

theorem last (slugged : Slugged text) : ∀ u ∈ text.getLast?, isSlugLetter u := by
  induction slugged with
  | word _ own => exact fun u final => own u (List.mem_of_mem_getLast? final)
  | @more word rest _ _ others ih =>
    intro u final
    rw [List.getLast?_append_of_ne_nil _ (List.cons_ne_nil _ _),
      List.getLast?_cons_of_ne_nil others.nonempty] at final
    exact ih u final

end Slugged

/-- A text of letters and hyphens that has a letter at both ends and no two hyphens in a row. -/
theorem slugged_of {text : Units} (nonempty : text ≠ [])
    (letters : ∀ u ∈ text, isSlugLetter u ∨ u = HYPHEN) (apart : text.IsChain Spaced)
    (first : ∀ u ∈ text.head?, u ≠ HYPHEN) (last : ∀ u ∈ text.getLast?, u ≠ HYPHEN) :
    Slugged text := by
  induction text using List.twoStepInduction with
  | nil => exact absurd rfl nonempty
  | singleton u =>
    have letter := (letters u List.mem_cons_self).resolve_right (first u rfl)
    exact .word nonempty (List.forall_mem_singleton.mpr letter)
  | cons_cons u v rest behind after =>
    have letter := (letters u List.mem_cons_self).resolve_right (first u rfl)
    have final : ∀ w ∈ (v :: rest).getLast?, w ≠ HYPHEN := fun w ends => last w (by
      rwa [List.getLast?_cons_cons])
    obtain ⟨-, chain⟩ := List.isChain_cons_cons.mp apart
    by_cases hyphen : v = HYPHEN
    · subst hyphen
      have filled : rest ≠ [] := by
        rintro rfl
        exact final HYPHEN rfl rfl
      have begins : ∀ w ∈ rest.head?, w ≠ HYPHEN := by
        cases rest with
        | nil => exact absurd rfl filled
        | cons w later =>
          rintro _ ⟨⟩ hyphen
          exact (List.isChain_cons_cons.mp chain).1 ⟨rfl, hyphen⟩
      have ends : ∀ w ∈ rest.getLast?, w ≠ HYPHEN := fun w closes => final w (by
        rwa [List.getLast?_cons_of_ne_nil filled])
      rw [← List.singleton_append]
      exact .more (List.cons_ne_nil _ _) (List.forall_mem_singleton.mpr letter) (behind filled
        (fun w member => letters w (List.mem_cons_of_mem _ (List.mem_cons_of_mem _ member)))
        chain.tail begins ends)
    · refine Slugged.cons letter (after v (List.cons_ne_nil _ _)
        (fun w member => letters w (List.mem_cons_of_mem _ member)) chain ?_ final)
      rintro _ ⟨⟩
      exact hyphen

/-- A run becomes one hyphen. -/
theorem hyphenate_apart (inRun : Bool) (text : Units) : (hyphenate inRun text).IsChain Spaced ∧
    (inRun = true → ∀ u ∈ (hyphenate inRun text).head?, u ≠ HYPHEN) := by
  induction text generalizing inRun with
  | nil => exact ⟨.nil, fun _ _ none => nomatch none⟩
  | cons u rest ih =>
    rw [hyphenate]
    split
    · rename_i letter
      have other : u ≠ HYPHEN := by
        rintro rfl
        exact absurd letter (by decide)
      refine ⟨List.isChain_cons.mpr ⟨fun v _ both => other both.1, (ih false).1⟩, ?_⟩
      rintro - _ ⟨⟩
      exact other
    · split
      · exact ⟨(ih true).1, fun _ => (ih true).2 rfl⟩
      · rename_i started
        refine ⟨List.isChain_cons.mpr ⟨fun v begins both => ?_, (ih true).1⟩,
          fun runs => absurd runs started⟩
        exact (ih true).2 rfl v begins both.2

theorem hyphenate_letters {word : Units} (letters : ∀ u ∈ word, isSlugLetter u) (rest : Units) :
    hyphenate false (word ++ rest) = word ++ hyphenate false rest := by
  induction word with
  | nil => rfl
  | cons u word ih =>
    obtain ⟨letter, others⟩ := List.forall_mem_cons.mp letters
    rw [List.cons_append, hyphenate, if_pos letter, ih others, List.cons_append]

/-- After a hyphen a slug goes on with a letter. -/
theorem hyphenate_after {text : Units} (slugged : Slugged text) :
    hyphenate true text = hyphenate false text := by
  have first := slugged.head
  cases text with
  | nil => rfl
  | cons u rest => rw [hyphenate, hyphenate, if_pos (first u rfl), if_pos (first u rfl)]

/-- No letter of a slug is written out as others. -/
theorem lookup_letter {u : UInt16} (kept : isSlugLetter u ∨ u = HYPHEN) :
    NON_DECOMPOSING_LETTERS.lookup u = none := by
  rw [List.lookup_eq_none_iff]
  intro entry listed
  have foreign : ∀ entry ∈ NON_DECOMPOSING_LETTERS, isSlugLetter entry.1 = false ∧
      entry.1 ≠ HYPHEN := by decide
  obtain ⟨other, apart⟩ := foreign entry listed
  rw [bne_iff_ne]
  rintro rfl
  rcases kept with letter | hyphen
  · exact absurd (letter.symm.trans other) (by decide)
  · exact apart hyphen

theorem hyphenate_slugged {text : Units} (slugged : Slugged text) :
    hyphenate false text = text := by
  induction slugged with
  | @word word _ letters =>
    have whole := hyphenate_letters letters []
    rwa [List.append_nil, hyphenate, List.append_nil] at whole
  | @more word rest _ letters others ih =>
    rw [hyphenate_letters letters, hyphenate, if_neg (by simp [hyphen_not_letter]),
      if_neg Bool.false_ne_true, hyphenate_after others, ih]

/-- What Unicode does to a text that is a slug already: nothing. -/
def Unicode.Plain (unicode : Unicode) : Prop :=
  ∀ text, (∀ u ∈ text, isSlugLetter u ∨ u = HYPHEN) →
    unicode.normalizeNFKD text = text ∧ unicode.toLowerCase text = text ∧
      unicode.stripMarks text = text

section Derivation
variable {unicode : Unicode} {title slug : Units}

theorem slugged_of_derived (derived : deriveStorySlug unicode title = .ok slug) :
    Slugged slug := by
  obtain ⟨⟨nonempty, -, letters⟩, -⟩ := isSlug_of_derived derived
  simp only [deriveStorySlug] at derived
  split at derived
  · cases derived
  · cases derived
    generalize transliterate _ = text at nonempty letters ⊢
    -- Every step after the hyphenation takes a part of its text.
    have trimmed : trimHyphens (hyphenate false text) <:+: hyphenate false text :=
      (List.rdropWhile_prefix _ _).isInfix.trans (List.dropWhile_suffix _).isInfix
    have cut : trimTrailingHyphens ((trimHyphens (hyphenate false text)).take
        MAX_STORY_SLUG_LENGTH) <+: trimHyphens (hyphenate false text) :=
      (List.rdropWhile_prefix _ _).trans (List.take_prefix _ _)
    have apart := (hyphenate_apart false text).1
    obtain ⟨front, back, whole⟩ := cut.isInfix.trans trimmed
    rw [← whole] at apart
    refine slugged_of nonempty letters apart.left_of_append.right_of_append ?_ ?_
    · intro u first hyphen
      -- The first unit survives the cut and the trim of the end.
      have within : u ∈ ((hyphenate false text).dropWhile (· = HYPHEN)).head? := by
        obtain ⟨back, whole⟩ := cut.trans (List.rdropWhile_prefix _ _)
        rw [← whole, List.head?_append_of_ne_nil _ nonempty]
        exact first
      have kept := List.head?_dropWhile_not (· = HYPHEN) (hyphenate false text)
      rw [Option.mem_def.mp within] at kept
      simp [hyphen] at kept
    · intro u final hyphen
      have nonhyphen := List.rdropWhile_last_not (· = HYPHEN) _ nonempty
      rw [Option.mem_def, List.getLast?_eq_some_getLast nonempty] at final
      exact nonhyphen (decide_eq_true ((Option.some.inj final).trans hyphen))

/-- A slug is left alone by every step of the derivation. -/
theorem derive_slugged (plain : unicode.Plain) (slugged : Slugged slug)
    (short : slug.length ≤ MAX_STORY_SLUG_LENGTH) : deriveStorySlug unicode slug = .ok slug := by
  obtain ⟨decomposed, lower, unmarked⟩ := plain slug slugged.letters
  have kept : transliterate slug = slug := by
    refine (List.flatMap_congr fun u member => ?_).trans (List.flatMap_singleton' slug)
    rw [lookup_letter (slugged.letters u member), Option.getD_none]
  have spaced : hyphenate false slug = slug := hyphenate_slugged slugged
  have front : slug.dropWhile (· = HYPHEN) = slug := by
    rw [List.dropWhile_eq_self_iff]
    intro positive hyphen
    have letter := slugged.head slug[0] (List.head?_eq_getElem? .. ▸ List.getElem?_eq_getElem _)
    rw [of_decide_eq_true hyphen] at letter
    exact absurd letter (by decide)
  have back : trimTrailingHyphens slug = slug := by
    rw [trimTrailingHyphens, List.rdropWhile_eq_self_iff]
    intro nonempty hyphen
    have letter := slugged.last _ (List.getLast?_eq_some_getLast nonempty)
    rw [of_decide_eq_true hyphen] at letter
    exact absurd letter (by decide)
  simp only [deriveStorySlug, decomposed, lower, unmarked, kept, spaced, trimHyphens, front, back,
    List.take_of_length_le short, List.length_eq_zero_iff, slugged.nonempty, if_false]

end Derivation

section Candidates

/-- The number of an attempt, as it stands at the end of its slug. -/
def attempt (number : Nat) : Units := (Nat.toDigits 10 number).map unit

theorem units_suffix (number : Nat) : units s!"-{number}" = HYPHEN :: attempt number := by
  have hyphen : (toString "-").toList = ['-'] := by decide
  simp only [units, attempt, String.toList_append, List.map_append, hyphen]
  rw [show toString number = number.repr from rfl, Nat.toList_repr]
  simp [HYPHEN, unit]

theorem digit_unit {c : Char} (digit : c.isDigit) : isSlugLetter (unit c) ∧ (unit c).toNat = c.toNat := by
  simp only [Char.isDigit, Bool.and_eq_true, decide_eq_true_eq, ge_iff_le] at digit
  have low : 48 ≤ c.toNat := UInt32.le_iff_toNat_le.mp digit.1
  have high : c.toNat ≤ 57 := UInt32.le_iff_toNat_le.mp digit.2
  have same : (unit c).toNat = c.toNat := by
    rw [unit, UInt16.toNat_ofNat']
    omega
  refine ⟨?_, same⟩
  simp only [isSlugLetter, isDigit, Bool.or_eq_true, Bool.and_eq_true, decide_eq_true_eq,
    UInt16.le_iff_toNat_le, same]
  exact Or.inl ⟨low, high⟩

theorem attempt_letters (number : Nat) : ∀ u ∈ attempt number, isSlugLetter u := by
  intro u member
  obtain ⟨c, digit, rfl⟩ := List.mem_map.mp member
  exact (digit_unit (Nat.isDigit_of_mem_toDigits (by decide) (by decide) digit)).1

theorem attempt_ne_nil (number : Nat) : attempt number ≠ [] :=
  fun empty => Nat.toDigits_ne_nil (List.map_eq_nil_iff.mp empty)

theorem attempt_injective : Function.Injective attempt := by
  intro number other same
  have digits (number : Nat) :
      (attempt number).map (fun u => Char.ofNat u.toNat) = Nat.toDigits 10 number := by
    rw [attempt, List.map_map]
    refine (List.map_congr_left fun c member => ?_).trans (List.map_id _)
    have digit := Nat.isDigit_of_mem_toDigits (by decide) (by decide) member
    rw [Function.comp_apply, (digit_unit digit).2, Char.ofNat_toNat, id]
  rw [← Nat.ofDigitChars_ten_toDigits (n := number), ← digits, same, digits,
    Nat.ofDigitChars_ten_toDigits]

variable {base : Units} {maxAttempts : Nat}

theorem candidate_eq (base : Units) (index : Nat) :
    (if index = 0 then base else base ++ units s!"-{index + 1}") =
      base ++ if index = 0 then [] else HYPHEN :: attempt (index + 1) := by
  split
  · rw [List.append_nil]
  · rw [units_suffix]

/-- No two attempts are made with one slug. -/
theorem candidates_nodup (base : Units) (maxAttempts : Nat) :
    (storySlugCandidates base maxAttempts).Nodup := by
  refine List.Nodup.map_on (fun index _ other _ same => ?_) List.nodup_range
  rw [candidate_eq, candidate_eq] at same
  have ends := List.append_cancel_left same
  split at ends <;> split at ends
  · rename_i first again
    exact first.trans again.symm
  · cases ends
  · cases ends
  · have number := attempt_injective (List.cons.inj ends).2
    omega

theorem candidate_slugged (slugged : Slugged base) {candidate : Units}
    (member : candidate ∈ storySlugCandidates base maxAttempts) : Slugged candidate := by
  obtain ⟨index, -, rfl⟩ := List.mem_map.mp member
  split
  · exact slugged
  · rw [units_suffix]
    exact slugged.append (attempt_ne_nil _) (attempt_letters _)

/-- The column has room for a number of 154 digits. -/
theorem candidate_fits (short : base.length ≤ MAX_STORY_SLUG_LENGTH)
    (few : maxAttempts < 10 ^ 154) {candidate : Units}
    (member : candidate ∈ storySlugCandidates base maxAttempts) : candidate.length ≤ 255 := by
  obtain ⟨index, counted, rfl⟩ := List.mem_map.mp member
  have limit : MAX_STORY_SLUG_LENGTH = 100 := rfl
  split
  · omega
  · have counted := List.mem_range.mp counted
    have digits : (attempt (index + 1)).length ≤ 154 := by
      rw [attempt, List.length_map, Nat.length_toDigits_le_iff (by decide) (by decide)]
      omega
    rw [units_suffix, List.length_append, List.length_cons]
    omega

end Candidates

/-- A derived slug is the slug of itself, and every candidate is a slug the column holds. -/
theorem story_slug_shape (unicode : Unicode) (plain : unicode.Plain) (title slug : Units)
    (derived : deriveStorySlug unicode title = .ok slug) :
    slug.length ≤ 100 ∧ Slugged slug ∧ deriveStorySlug unicode slug = .ok slug ∧
      (∀ maxAttempts, (storySlugCandidates slug maxAttempts).Nodup ∧
        ∀ candidate ∈ storySlugCandidates slug maxAttempts, Slugged candidate) ∧
      ∀ maxAttempts < 10 ^ 154, ∀ candidate ∈ storySlugCandidates slug maxAttempts,
        candidate.length ≤ 255 := by
  have short := (isSlug_of_derived derived).2
  have slugged := slugged_of_derived derived
  refine ⟨short, slugged, derive_slugged plain slugged short, fun maxAttempts =>
    ⟨candidates_nodup slug maxAttempts, fun _ => candidate_slugged slugged⟩, ?_⟩
  exact fun _ few _ => candidate_fits short few

theorem ascii_plain : Unicode.ascii.Plain := by
  intro text letters
  refine ⟨rfl, (List.map_congr_left fun u member => if_neg ?_).trans (List.map_id _), rfl⟩
  intro capital
  simp only [Bool.and_eq_true, decide_eq_true_eq, UInt16.le_iff_toNat_le] at capital
  rcases letters u member with letter | rfl
  · simp only [isSlugLetter, isDigit, Bool.or_eq_true, Bool.and_eq_true, decide_eq_true_eq,
      UInt16.le_iff_toNat_le] at letter
    rcases letter with digit | letter
    · exact absurd (Nat.le_trans capital.1 digit.2) (by decide)
    · exact absurd (Nat.le_trans letter.1 capital.2) (by decide)
  · exact absurd capital.1 (by decide)

theorem story_slug_shape_hello :
    Slugged (units "hello-world") ∧
      (storySlugCandidates (units "hello-world") MAX_SLUG_COLLISION_ATTEMPTS).Nodup :=
  have shape := story_slug_shape .ascii ascii_plain (units "  Hello,  World! ")
    (units "hello-world") (by decide)
  ⟨shape.2.1, (shape.2.2.2.1 MAX_SLUG_COLLISION_ATTEMPTS).1⟩

end Stories
