import Hakawi.Common.Exceptions

/-!
# Slugs

The server derives a slug from a title: what is not a lower-case letter or a digit becomes a
hyphen, no two hyphens in a row, none at an end. A slug that is taken is retried with a number
at its end.
-/

namespace Stories
open Html Common

/-- The Unicode functions of the runtime; nothing is assumed about them. -/
structure Unicode where
  /-- `text.normalize('NFKD')` -/
  normalizeNFKD : Units → Units
  toLowerCase : Units → Units
  /-- `text.replace(/\p{M}+/gu, '')` -/
  stripMarks : Units → Units

/-- What they do to a string of ASCII characters. -/
def Unicode.ascii : Unicode := ⟨id, lowerCase, id⟩

def MAX_STORY_SLUG_LENGTH : Nat := 100

def MAX_SLUG_COLLISION_ATTEMPTS : Nat := 10

def NON_DECOMPOSING_LETTERS : List (UInt16 × Units) :=
  [(0xdf, units "ss"), (0xe6, units "ae"), (0x153, units "oe"), (0xf8, units "o"),
    (0x111, units "d"), (0xf0, units "d"), (0x142, units "l"), (0xfe, units "th"),
    (0x127, units "h"), (0x167, units "t"), (0x131, units "i"), (0x138, units "k"),
    (0x192, units "f")]

def transliterate (text : Units) : Units :=
  text.flatMap fun u => (NON_DECOMPOSING_LETTERS.lookup u).getD [u]

def HYPHEN : UInt16 := 45

/-- `[a-z0-9]` -/
def isSlugLetter (u : UInt16) : Bool := isDigit u || (97 ≤ u && u ≤ 122)

/-- `.replace(/[^a-z0-9]+/g, '-')`; `inRun` once a hyphen stands for the run. -/
def hyphenate (inRun : Bool) : Units → Units
  | [] => []
  | u :: rest =>
    if isSlugLetter u then u :: hyphenate false rest
    else if inRun then hyphenate true rest
    else HYPHEN :: hyphenate true rest

/-- Without the matches of `-+$`. -/
def trimTrailingHyphens (text : Units) : Units := text.rdropWhile (· = HYPHEN)

/-- Without the matches of `^-+|-+$`. -/
def trimHyphens (text : Units) : Units := trimTrailingHyphens (text.dropWhile (· = HYPHEN))

def deriveStorySlug (unicode : Unicode) (title : Units) : Except Exception Units :=
  let folded := unicode.stripMarks (unicode.toLowerCase (unicode.normalizeNFKD title))
  let base := trimHyphens (hyphenate false (transliterate folded))
  let truncated := trimTrailingHyphens (base.take MAX_STORY_SLUG_LENGTH)
  if truncated.length = 0 then
    .error (.badRequest (units "Title \"" ++ title ++
      units "\" has no characters that can form a URL slug. A story URL can only be built from " ++
      units "Latin letters, digits and hyphens, so this title cannot be published as-is. " ++
      units "Send an explicit \"slug\" to choose the URL yourself."))
  else .ok truncated

def storySlugCandidates (base : Units) (maxAttempts : Nat) : List Units :=
  (List.range maxAttempts).map fun index =>
    if index = 0 then base else base ++ units s!"-{index + 1}"

/-- `/^[a-z0-9-]+$/`, and what the column of the slug holds. -/
structure IsSlug (text : Units) : Prop where
  nonempty : text ≠ []
  fits : text.length ≤ 255
  letters : ∀ u ∈ text, isSlugLetter u ∨ u = HYPHEN

theorem mem_hyphenate {text : Units} {inRun : Bool} {u : UInt16}
    (member : u ∈ hyphenate inRun text) : isSlugLetter u ∨ u = HYPHEN := by
  induction text generalizing inRun with
  | nil => cases member
  | cons v rest ih =>
    rw [hyphenate] at member
    split at member
    · rename_i letter
      rcases List.mem_cons.mp member with rfl | later
      · exact Or.inl letter
      · exact ih later
    · split at member
      · exact ih member
      · rcases List.mem_cons.mp member with rfl | later
        · exact Or.inr rfl
        · exact ih later

theorem mem_of_mem_trimTrailingHyphens {text : Units} {u : UInt16}
    (member : u ∈ trimTrailingHyphens text) : u ∈ text :=
  (List.rdropWhile_prefix _ text).subset member

/-- A derived slug passes the check that is made of a slug a client sends. -/
theorem isSlug_of_derived {unicode : Unicode} {title slug : Units}
    (derived : deriveStorySlug unicode title = .ok slug) :
    IsSlug slug ∧ slug.length ≤ MAX_STORY_SLUG_LENGTH := by
  simp only [deriveStorySlug] at derived
  split at derived
  · cases derived
  · rename_i nonempty
    cases derived
    have short : ∀ text : Units, (trimTrailingHyphens (text.take MAX_STORY_SLUG_LENGTH)).length ≤
        MAX_STORY_SLUG_LENGTH := fun text =>
      Nat.le_trans (List.rdropWhile_prefix _ _).length_le (List.length_take_le _ _)
    refine ⟨⟨fun empty => nonempty (by rw [empty]; rfl), Nat.le_trans (short _) (by decide),
      fun u member => ?_⟩, short _⟩
    have kept := List.mem_of_mem_take (mem_of_mem_trimTrailingHyphens member)
    have within := mem_of_mem_trimTrailingHyphens kept
    exact mem_hyphenate ((List.dropWhile_sublist _).subset within)

example : deriveStorySlug .ascii (units "  Hello,  World! ") = .ok (units "hello-world") := by
  decide

end Stories
