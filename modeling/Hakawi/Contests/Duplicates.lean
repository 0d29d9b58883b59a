import Hakawi.Contests.Service
import Mathlib.Data.List.Infix

/-!
# Duplicate titles

Before a contest is created, one row is asked for whose title the new title matches as a
pattern. Only that row is compared without case.
-/

namespace Contests
open Common Effects

/-- `text LIKE pattern`: `%` stands for any text and `_` for one character; what follows a
backslash stands for itself. -/
def matchesLike : List Char → List Char → Bool
  | [], text => text.isEmpty
  | '%' :: pattern, text => text.tails.any (matchesLike pattern)
  | '_' :: pattern, text =>
    match text with
    | [] => false
    | _ :: rest => matchesLike pattern rest
  | '\\' :: c :: pattern, text =>
    match text with
    | [] => false
    | d :: rest => c = d && matchesLike pattern rest
  | c :: pattern, text =>
    match text with
    | [] => false
    | d :: rest => c = d && matchesLike pattern rest

/-- `title LIKE '%' || search || '%'` -/
def like (title search : String) : Bool :=
  matchesLike ('%' :: search.toList ++ ['%']) title.toList

section Title
variable (trim toLowerCase : String → String)

/-- The title is the new one, but for its case. -/
def SameTitle (title : String) (contest : Contest) : Prop :=
  toLowerCase contest.title = toLowerCase (trim title)

instance (title : String) (contest : Contest) :
    Decidable (SameTitle trim toLowerCase title contest) := inferInstanceAs (Decidable (_ = _))

/-- What a creation run alone comes to. -/
def outcome (choices : Nat → Choice) (system : System) (createdBy : String)
    (input : CreateContestInput) : Except Failure Contest :=
  ((create ⟨trim, toLowerCase, like⟩ createdBy input).run.eval exec choices system).1

def Refused (choices : Nat → Choice) (system : System) (createdBy : String)
    (input : CreateContestInput) : Prop :=
  outcome trim toLowerCase choices system createdBy input =
    .error (.conflict "Contest title already exists")

variable {trim toLowerCase} {choices : Nat → Choice} {system : System} {createdBy : String}
  {input : CreateContestInput}

/-- The creation looks at one row: the newest that the title matches. -/
theorem refused_iff : Refused trim toLowerCase choices system createdBy input ↔
    ∃ contest ∈ system.tables.findAllContests (like · (trim input.title)) 1,
      SameTitle trim toLowerCase input.title contest := by
  have first : outcome trim toLowerCase choices system createdBy input =
      ((do
        guard ((system.tables.findAllContests (like · (trim input.title)) 1).all fun c =>
          toLowerCase c.title ≠ toLowerCase (trim input.title))
          (.conflict "Contest title already exists")
        let contest ← call (.createContest input createdBy)
        call (.emit (.created contest.id createdBy))
        return contest : Handler Contest).run.eval exec (fun n => choices (n + 1))
          { system with now := system.now + (choices 0).elapsed }).1 := rfl
  rw [Refused, first]
  generalize system.tables.findAllContests (like · (trim input.title)) 1 = found
  cases clear : found.all fun c => toLowerCase c.title ≠ toLowerCase (trim input.title) with
  | false =>
    refine iff_of_true rfl ?_
    obtain ⟨contest, member, same⟩ := List.all_eq_false.mp clear
    exact ⟨contest, member, by simpa [SameTitle] using same⟩
  | true =>
    refine iff_of_false nofun ?_
    rintro ⟨contest, member, same⟩
    exact of_decide_eq_true (List.all_eq_true.mp clear contest member) same

/-- A title that is taken is refused if and only if the newest contest it matches has it. -/
theorem duplicates_refused (trim toLowerCase : String → String) (choices : Nat → Choice)
    (system : System) (createdBy : String) (input : CreateContestInput) :
    (Refused trim toLowerCase choices system createdBy input ↔
      ∃ contest ∈ system.tables.contests.rows, SameTitle trim toLowerCase input.title contest) ↔
    ((∀ contest ∈ system.tables.contests.rows, ¬ SameTitle trim toLowerCase input.title contest) ∨
      ∃ contest ∈ system.tables.findAllContests (like · (trim input.title)) 1,
        SameTitle trim toLowerCase input.title contest) := by
  have among : ∀ contest ∈ system.tables.findAllContests (like · (trim input.title)) 1,
      contest ∈ system.tables.contests.rows := by
    intro contest member
    have kept := List.mem_of_mem_take member
    exact List.mem_reverse.mp (List.mem_filter.mp kept).1
  rw [refused_iff]
  constructor
  · intro exactly
    by_cases taken : ∃ contest ∈ system.tables.contests.rows,
        SameTitle trim toLowerCase input.title contest
    · exact Or.inr (exactly.mpr taken)
    · exact Or.inl fun contest member same => taken ⟨contest, member, same⟩
  · rintro (free | found)
    · refine ⟨fun ⟨contest, member, same⟩ => ⟨contest, among contest member, same⟩, ?_⟩
      rintro ⟨contest, member, same⟩
      exact absurd same (free contest member)
    · obtain ⟨contest, member, same⟩ := found
      exact iff_of_true ⟨contest, member, same⟩ ⟨contest, among contest member, same⟩

end Title

/-- A text of ASCII letters in lower case. -/
def lowerAscii (text : String) : String := String.ofList (text.toList.map Char.toLower)

/-- One contest, `Moon Tales`. -/
def moonTales : System where
  now := 0
  tables := (ContestsTables.empty.createContest ⟨"Moon Tales", 20, 10⟩ "publisher").2
  events := []

/-- The same title in small letters matches no row, so the contest is created. -/
theorem moon_tales_twice : ¬ (Refused id lowerAscii (fun _ => {}) moonTales "publisher"
    ⟨"moon tales", 20, 10⟩ ↔ ∃ contest ∈ moonTales.tables.contests.rows,
      SameTitle id lowerAscii "moon tales" contest) := by
  rw [refused_iff]
  decide

end Contests
