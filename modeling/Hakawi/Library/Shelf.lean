import Hakawi.Common.Exceptions
import Hakawi.Store.Table

/-!
# The library shelf

One row for a book a reader holds, owned or rented. The table has no unique key
on the reader and the book: every writer looks the pair up first, and every
removal takes the row that lookup returns.
-/

namespace Library

open Common Store

inductive LibraryStatus where
  | owned
  | rented
  deriving DecidableEq, Repr

structure LibraryItem where
  id : Nat
  userId : String
  bookId : String
  rentalId : Option Nat
  status : LibraryStatus
  deriving DecidableEq

inductive LibraryEvent where
  | itemAdded (libraryItemId : Nat) (userId bookId : String)
  | itemRemoved (libraryItemId : Nat) (userId : String)
  deriving DecidableEq, Repr

/-- The table, and the announcements made about it. -/
structure Shelf where
  items : Table LibraryItem LibraryItem.id
  events : List LibraryEvent

namespace Shelf

def empty : Shelf := ⟨.empty, []⟩

def findById (shelf : Shelf) (id : Nat) : Option LibraryItem := shelf.items.find? id

def findByUserAndBook (shelf : Shelf) (userId bookId : String) : Option LibraryItem :=
  shelf.items.rows.find? fun item => item.userId = userId ∧ item.bookId = bookId

def findByRentalId (shelf : Shelf) (rentalId : Nat) : Option LibraryItem :=
  shelf.items.rows.find? fun item => item.rentalId = some rentalId

def create (shelf : Shelf) (userId bookId : String) (rentalId : Option Nat)
    (status : LibraryStatus) : LibraryItem × Shelf :=
  let row := fun id => { id, userId, bookId, rentalId, status : LibraryItem }
  (row shelf.items.next, { shelf with items := shelf.items.insert row fun _ => rfl })

def delete (shelf : Shelf) (id : Nat) : Shelf := { shelf with items := shelf.items.erase id }

def announce (shelf : Shelf) (event : LibraryEvent) : Shelf :=
  { shelf with events := shelf.events ++ [event] }

/-- The grant itself, once its caller has decided there is one to make. -/
def grant (shelf : Shelf) (userId bookId : String) (rentalId : Option Nat)
    (status : LibraryStatus) : LibraryItem × Shelf :=
  let created := shelf.create userId bookId rentalId status
  (created.1, created.2.announce (.itemAdded created.1.id userId bookId))

def addToLibrary (shelf : Shelf) (userId bookId : String) (rentalId : Option Nat) :
    Except Failure (LibraryItem × Shelf) :=
  match shelf.findByUserAndBook userId bookId with
  | some _ => .error (.conflict "Book already in library")
  | none =>
    .ok (shelf.grant userId bookId rentalId (if rentalId.isSome then .rented else .owned))

def removeFromLibrary (shelf : Shelf) (id : Nat) (userId : String) : Except Failure Shelf :=
  match shelf.findById id with
  | none => .error (.notFound "Library item not found")
  | some item =>
    if item.userId ≠ userId then .error (.notFound "Library item not found")
    else .ok ((shelf.delete id).announce (.itemRemoved id userId))

/-- Removes the entry of the pair if there is one, whatever granted it. -/
def removeBookForRefund (shelf : Shelf) (userId bookId : String) : Except Failure (Bool × Shelf) :=
  match shelf.findByUserAndBook userId bookId with
  | none => .ok (false, shelf)
  | some item =>
    match shelf.removeFromLibrary item.id userId with
    | .ok removed => .ok (true, removed)
    | .error (.http .notFound _) => .ok (false, shelf)
    | .error error => .error error

end Shelf

/-- What the rentals module announces. -/
inductive RentalEvent where
  | created (rentalId : Nat) (userId bookId : String)
  | returned (rentalId : Nat)
  | expired (rentalId : Nat)
  | extended (rentalId : Nat)
  deriving DecidableEq, Repr

/-- The rental that an event says has ended. -/
def RentalEvent.ending : RentalEvent → Option Nat
  | .created _ _ _ => none
  | .returned rentalId => some rentalId
  | .expired rentalId => some rentalId
  | .extended _ => none

namespace Shelf
variable (shelf : Shelf)

def handleRentalCreated (rentalId : Nat) (userId bookId : String) : Except Failure Shelf :=
  match shelf.findByRentalId rentalId, shelf.findByUserAndBook userId bookId with
  | some _, _ => .ok shelf
  | none, some _ => .ok shelf
  | none, none =>
    match shelf.addToLibrary userId bookId (some rentalId) with
    | .ok granted => .ok granted.2
    | .error (.http .conflict _) => .ok shelf
    | .error error => .error error

/-- Found by the rental's own id, and then removed by the reader and the book. -/
def withdrawRentalAccess (rentalId : Nat) : Except Failure Shelf :=
  match shelf.findByRentalId rentalId with
  | none => .ok shelf
  | some granted => do
    let withdrawn ← shelf.removeBookForRefund granted.userId granted.bookId
    return withdrawn.2

def handleRentalEvent : RentalEvent → Except Failure Shelf
  | .created rentalId userId bookId => shelf.handleRentalCreated rentalId userId bookId
  | .returned rentalId => shelf.withdrawRentalAccess rentalId
  | .expired rentalId => shelf.withdrawRentalAccess rentalId
  | .extended _ => .ok shelf

end Shelf

namespace LibraryItem

/-- The reader and the book an entry is for. -/
def pair (item : LibraryItem) : String × String := (item.userId, item.bookId)

end LibraryItem

namespace Shelf
variable {shelf : Shelf} {userId bookId : String}

theorem findByUserAndBook_some {item : LibraryItem}
    (h : shelf.findByUserAndBook userId bookId = some item) :
    item ∈ shelf.items.rows ∧ item.pair = (userId, bookId) := by
  refine ⟨List.mem_of_find?_eq_some h, ?_⟩
  have named := List.find?_some h
  simp only [Bool.decide_and, Bool.and_eq_true, decide_eq_true_eq] at named
  rw [LibraryItem.pair, named.1, named.2]

theorem findByUserAndBook_none (h : shelf.findByUserAndBook userId bookId = none) :
    ∀ item ∈ shelf.items.rows, item.pair ≠ (userId, bookId) := by
  intro item hm hp
  have absent := List.find?_eq_none.mp h item hm
  simp only [LibraryItem.pair, Prod.mk.injEq] at hp
  simp [hp.1, hp.2] at absent

theorem findByRentalId_some {item : LibraryItem} {rentalId : Nat}
    (h : shelf.findByRentalId rentalId = some item) :
    item ∈ shelf.items.rows ∧ item.rentalId = some rentalId :=
  ⟨List.mem_of_find?_eq_some h, by simpa using List.find?_some h⟩

theorem findByRentalId_none {rentalId : Nat} (h : shelf.findByRentalId rentalId = none) :
    ∀ item ∈ shelf.items.rows, item.rentalId ≠ some rentalId := by
  intro item hm
  simpa using List.find?_eq_none.mp h item hm

/-- One entry for a pair and one for a rental, and no rental behind an owned book. -/
structure Sound (shelf : Shelf) : Prop where
  pairs : ∀ a ∈ shelf.items.rows, ∀ b ∈ shelf.items.rows, a.pair = b.pair → a = b
  rentals : ∀ a ∈ shelf.items.rows, ∀ b ∈ shelf.items.rows, ∀ rentalId,
    a.rentalId = some rentalId → b.rentalId = some rentalId → a = b
  owned : ∀ item ∈ shelf.items.rows, item.status = .owned → item.rentalId = none

theorem Sound.empty : Sound Shelf.empty := by
  refine ⟨?_, ?_, ?_⟩ <;> (intro a ha; cases ha)

/-- The entries of one shelf are those of another that pass a test. -/
def Keeps (test : LibraryItem → Prop) (before after : Shelf) : Prop :=
  ∀ item, item ∈ after.items.rows ↔ item ∈ before.items.rows ∧ test item

theorem Keeps.all {test : LibraryItem → Prop} (h : ∀ item ∈ shelf.items.rows, test item) :
    Keeps test shelf shelf :=
  fun item => ⟨fun hm => ⟨hm, h item hm⟩, fun hm => hm.1⟩

theorem Keeps.sound {test : LibraryItem → Prop} {after : Shelf} (h : Keeps test shelf after)
    (sound : Sound shelf) : Sound after := by
  have old : ∀ item ∈ after.items.rows, item ∈ shelf.items.rows := fun item hm => ((h item).mp hm).1
  refine ⟨fun a ha b hb => ?_, fun a ha b hb => ?_, fun item hm => ?_⟩
  · exact sound.pairs a (old a ha) b (old b hb)
  · exact sound.rentals a (old a ha) b (old b hb)
  · exact sound.owned item (old item hm)

/-- The entry the pair finds is the one its id finds, so its removal goes through. -/
theorem removeBookForRefund_eq (shelf : Shelf) (userId bookId : String) :
    shelf.removeBookForRefund userId bookId =
      match shelf.findByUserAndBook userId bookId with
      | none => .ok (false, shelf)
      | some item => .ok (true, (shelf.delete item.id).announce (.itemRemoved item.id userId)) := by
  unfold removeBookForRefund
  cases hf : shelf.findByUserAndBook userId bookId with
  | none => rfl
  | some item =>
    obtain ⟨hm, hp⟩ := findByUserAndBook_some hf
    have found : shelf.findById item.id = some item := Table.find?_eq_some_iff.mpr ⟨hm, rfl⟩
    have own : item.userId = userId := congrArg Prod.fst hp
    simp [removeFromLibrary, found, own]

theorem delete_keeps {item : LibraryItem} (hm : item ∈ shelf.items.rows) (event : LibraryEvent) :
    Keeps (· ≠ item) shelf ((shelf.delete item.id).announce event) := by
  intro other
  constructor
  · intro ho
    obtain ⟨old, different⟩ := List.mem_filter.mp ho
    refine ⟨old, ?_⟩
    rintro rfl
    simp at different
  · rintro ⟨old, different⟩
    refine List.mem_filter.mpr ⟨old, ?_⟩
    have ids : other.id ≠ item.id := fun e =>
      different (List.inj_on_of_nodup_map shelf.items.unique old hm e)
    simpa using ids

/-- A refund takes the entry of the pair. -/
theorem removeBookForRefund_keeps (sound : Sound shelf) (userId bookId : String) :
    ∃ result, shelf.removeBookForRefund userId bookId = .ok result ∧
      Keeps (·.pair ≠ (userId, bookId)) shelf result.2 := by
  rw [removeBookForRefund_eq]
  cases hf : shelf.findByUserAndBook userId bookId with
  | none => exact ⟨_, rfl, .all (findByUserAndBook_none hf)⟩
  | some item =>
    obtain ⟨hm, hp⟩ := findByUserAndBook_some hf
    refine ⟨_, rfl, fun other => (delete_keeps hm _ other).trans (and_congr_right fun ho => ?_)⟩
    rw [← hp]
    exact not_congr ⟨congrArg LibraryItem.pair, sound.pairs other ho item hm⟩

/-- The end of a rental takes the entry that names it. -/
theorem withdrawRentalAccess_keeps (sound : Sound shelf) (rentalId : Nat) :
    ∃ after, shelf.withdrawRentalAccess rentalId = .ok after ∧
      Keeps (·.rentalId ≠ some rentalId) shelf after := by
  unfold withdrawRentalAccess
  cases hf : shelf.findByRentalId rentalId with
  | none => exact ⟨_, rfl, .all (findByRentalId_none hf)⟩
  | some granted =>
    obtain ⟨hm, hr⟩ := findByRentalId_some hf
    obtain ⟨result, he, keeps⟩ := removeBookForRefund_keeps sound granted.userId granted.bookId
    refine ⟨result.2, by simp [he, bind, Except.bind, pure, Except.pure], fun other => ?_⟩
    refine (keeps other).trans (and_congr_right fun ho => not_congr ⟨fun e => ?_, fun e => ?_⟩)
    · rw [sound.pairs other ho granted hm e]
      exact hr
    · rw [sound.rentals other ho granted hm rentalId e hr]
      rfl

/-- An entry was in the way, or one was added. -/
inductive Grants (pair : String × String) (rentalId : Option Nat) (status : LibraryStatus)
    (before after : Shelf) : Prop where
  | held (item : LibraryItem) (present : item ∈ before.items.rows)
      (same : item.pair = pair ∨ (rentalId.isSome ∧ item.rentalId = rentalId))
      (kept : after = before)
  | added (item : LibraryItem) (free : ∀ other ∈ before.items.rows, other.pair ≠ pair)
      (unnamed : rentalId.isSome → ∀ other ∈ before.items.rows, other.rentalId ≠ rentalId)
      (rows : after.items.rows = before.items.rows ++ [item]) (named : item.pair = pair)
      (from_ : item.rentalId = rentalId) (as : item.status = status)

theorem Grants.kept {pair : String × String} {rentalId : Option Nat} {status : LibraryStatus}
    {before after : Shelf} (h : Grants pair rentalId status before after) :
    ∀ item ∈ before.items.rows, item ∈ after.items.rows := by
  intro item hm
  cases h with
  | held other present same kept => exact kept ▸ hm
  | added added free unnamed rows =>
    rw [rows]
    exact List.mem_append_left _ hm

theorem Grants.origin {pair : String × String} {rentalId : Option Nat} {status : LibraryStatus}
    {before after : Shelf} (h : Grants pair rentalId status before after) :
    ∀ item ∈ after.items.rows, item ∈ before.items.rows ∨ item.rentalId = rentalId := by
  intro item hm
  cases h with
  | held other present same kept => exact Or.inl (kept ▸ hm)
  | added added free unnamed rows named from_ =>
    rw [rows] at hm
    rcases List.mem_append.mp hm with old | new
    · exact Or.inl old
    · rw [List.mem_singleton.mp new]
      exact Or.inr from_

theorem Grants.sound {pair : String × String} {rentalId : Option Nat} {status : LibraryStatus}
    {before after : Shelf} (h : Grants pair rentalId status before after)
    (plain : status = .owned → rentalId = none) (sound : Sound before) : Sound after := by
  cases h with
  | held item present same kept => exact kept ▸ sound
  | added item free unnamed rows named from_ as =>
    have cases : ∀ other ∈ after.items.rows, other ∈ before.items.rows ∨ other = item := by
      intro other ho
      rw [rows] at ho
      exact (List.mem_append.mp ho).imp_right List.mem_singleton.mp
    refine ⟨fun a ha b hb same => ?_, fun a ha b hb id na nb => ?_, fun a ha owned => ?_⟩
    · rcases cases a ha with oldA | rfl <;> rcases cases b hb with oldB | rfl
      · exact sound.pairs a oldA b oldB same
      · exact absurd (same.trans named) (free a oldA)
      · exact absurd (same.symm.trans named) (free b oldB)
      · rfl
    · rcases cases a ha with oldA | rfl <;> rcases cases b hb with oldB | rfl
      · exact sound.rentals a oldA b oldB id na nb
      · have same := from_.symm.trans nb
        exact absurd (na.trans same.symm) (unnamed (by rw [same]; rfl) a oldA)
      · have same := from_.symm.trans na
        exact absurd (nb.trans same.symm) (unnamed (by rw [same]; rfl) b oldB)
      · rfl
    · rcases cases a ha with oldA | rfl
      · exact sound.owned a oldA owned
      · rw [from_, plain (as.symm.trans owned)]

theorem grant_grants {rentalId : Option Nat} {status : LibraryStatus}
    (h : shelf.findByUserAndBook userId bookId = none)
    (unnamed : rentalId.isSome → ∀ other ∈ shelf.items.rows, other.rentalId ≠ rentalId) :
    Grants (userId, bookId) rentalId status shelf (shelf.grant userId bookId rentalId status).2 :=
  .added _ (findByUserAndBook_none h) unnamed rfl rfl rfl rfl

/-- A rental that was created puts an entry on the shelf, unless one is in the way. -/
theorem handleRentalCreated_grants (shelf : Shelf) (rentalId : Nat) (userId bookId : String) :
    ∃ after, shelf.handleRentalCreated rentalId userId bookId = .ok after ∧
      Grants (userId, bookId) (some rentalId) .rented shelf after := by
  unfold handleRentalCreated
  cases hr : shelf.findByRentalId rentalId with
  | some item =>
    obtain ⟨hm, hid⟩ := findByRentalId_some hr
    exact ⟨shelf, rfl, .held item hm (Or.inr ⟨rfl, hid⟩) rfl⟩
  | none =>
    cases hf : shelf.findByUserAndBook userId bookId with
    | some item =>
      obtain ⟨hm, hp⟩ := findByUserAndBook_some hf
      exact ⟨shelf, rfl, .held item hm (Or.inl hp) rfl⟩
    | none =>
      refine ⟨(shelf.grant userId bookId (some rentalId) .rented).2, ?_,
        grant_grants hf fun _ => findByRentalId_none hr⟩
      simp [addToLibrary, hf]

/-- What events of rentals leave alone, and what they add. -/
structure Hears (events : List RentalEvent) (before after : Shelf) : Prop where
  sound : Sound after
  survives : ∀ item ∈ before.items.rows, (∀ event ∈ events, ∀ rentalId,
    event.ending = some rentalId → item.rentalId ≠ some rentalId) → item ∈ after.items.rows
  origin : ∀ item ∈ after.items.rows, item ∈ before.items.rows ∨
    ∃ rentalId userId bookId, .created rentalId userId bookId ∈ events ∧
      item.rentalId = some rentalId

namespace Hears
variable {event : RentalEvent} {events : List RentalEvent} {before middle after : Shelf}

theorem refl (sound : Sound before) (events : List RentalEvent) : Hears events before before :=
  ⟨sound, fun _ hm _ => hm, fun _ hm => Or.inl hm⟩

theorem cons (first : Hears [event] before middle) (second : Hears events middle after) :
    Hears (event :: events) before after := by
  refine ⟨second.sound, fun item hm spared => ?_, fun item hm => ?_⟩
  · refine second.survives item (first.survives item hm fun e he => ?_) fun e he => ?_
    · rw [List.mem_singleton.mp he]
      exact spared event List.mem_cons_self
    · exact spared e (List.mem_cons_of_mem _ he)
  · rcases second.origin item hm with old | ⟨id, userId, bookId, listed, named⟩
    · rcases first.origin item old with older | ⟨id, userId, bookId, listed, named⟩
      · exact Or.inl older
      · refine Or.inr ⟨id, userId, bookId, ?_, named⟩
        rw [List.mem_singleton.mp listed]
        exact List.mem_cons_self
    · exact Or.inr ⟨id, userId, bookId, List.mem_cons_of_mem _ listed, named⟩

/-- An owned book is no rental's to take. -/
theorem owned (h : Hears events before after) (sound : Sound before) {item : LibraryItem}
    (hm : item ∈ before.items.rows) (owns : item.status = .owned) : item ∈ after.items.rows := by
  refine h.survives item hm fun event _ rentalId _ => ?_
  rw [sound.owned item hm owns]
  exact nofun

end Hears

theorem handleRentalEvent_hears (sound : Sound shelf) (event : RentalEvent) :
    ∃ after, shelf.handleRentalEvent event = .ok after ∧ Hears [event] shelf after := by
  have withdrawn : ∀ rentalId, event.ending = some rentalId →
      ∃ after, shelf.withdrawRentalAccess rentalId = .ok after ∧ Hears [event] shelf after := by
    intro rentalId ending
    obtain ⟨after, he, keeps⟩ := withdrawRentalAccess_keeps sound rentalId
    refine ⟨after, he, keeps.sound sound, fun item hm spared => (keeps item).mpr ⟨hm, ?_⟩,
      fun item hm => Or.inl ((keeps item).mp hm).1⟩
    exact spared event (List.mem_singleton_self _) rentalId ending
  cases event with
  | created rentalId userId bookId =>
    obtain ⟨after, he, grants⟩ := handleRentalCreated_grants shelf rentalId userId bookId
    refine ⟨after, he, grants.sound nofun sound, fun item hm _ => grants.kept item hm,
      fun item hm => (grants.origin item hm).imp_right fun named => ?_⟩
    exact ⟨rentalId, userId, bookId, List.mem_singleton_self _, named⟩
  | returned rentalId => exact withdrawn rentalId rfl
  | expired rentalId => exact withdrawn rentalId rfl
  | extended rentalId => exact ⟨shelf, rfl, .refl sound _⟩

end Shelf

end Library
