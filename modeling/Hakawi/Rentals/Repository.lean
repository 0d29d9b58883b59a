import Hakawi.Common.Exceptions
import Hakawi.Store.Table
import Mathlib.Data.Rat.Floor

/-!
# Rentals

Rows of `rentals` and `rental_extensions`, the repository over them and the
questions the service answers from them. Instants are integers in milliseconds
and days are days of UTC. Rows are never deleted, and the newest row of a reader
and a book is the one every lookup by that pair returns.
-/

namespace Rentals

open Common Store

inductive RentalStatus where
  | active
  | expired
  | returned
  | cancelled
  deriving DecidableEq, Repr

structure Rental where
  id : Nat
  userId : String
  bookId : String
  status : RentalStatus
  startDate : Int
  endDate : Int
  extendedCount : Nat
  maxExtensions : Nat
  returnedAt : Option Int
  deletedAt : Option Int
  createdAt : Int

/-- The rental has come to its end, by the clock, a refund or its return. -/
def Rental.Ended (rental : Rental) : Prop :=
  rental.status = .expired ∨ rental.status = .returned

instance (rental : Rental) : Decidable rental.Ended := inferInstanceAs (Decidable (_ ∨ _))

structure RentalExtension where
  id : Nat
  rentalId : Nat
  previousEndDate : Int
  newEndDate : Int
  extensionDays : Rat

def MS_PER_DAY : Int := 86400000

/-- `date.setDate(date.getDate() + days)`; a fraction of a day is dropped. -/
def addDays (date : Int) (days : Rat) : Int := date + ⌊days⌋ * MS_PER_DAY

def RENTAL_DURATION_DAYS : List Int := [1, 3, 7, 14, 30, 90]

def RENTAL_CURRENCY : String := "EGP"

def rentalPriceForDays (days : Int) : Int := 1000 * days

structure RentalPatch where
  status : Option RentalStatus := none
  endDate : Option Int := none
  extendedCount : Option Nat := none
  returnedAt : Option (Option Int) := none

namespace RentalPatch

def apply (patch : RentalPatch) (rental : Rental) : Rental :=
  { rental with
    status := patch.status.getD rental.status
    endDate := patch.endDate.getD rental.endDate
    extendedCount := patch.extendedCount.getD rental.extendedCount
    returnedAt := patch.returnedAt.getD rental.returnedAt }

@[simp] theorem apply_id (patch : RentalPatch) (rental : Rental) :
    (patch.apply rental).id = rental.id := rfl

end RentalPatch

/-- `orderBy(desc(createdAt)).limit(1)` -/
def newest : List Rental → Option Rental
  | [] => none
  | rental :: rest =>
    match newest rest with
    | none => some rental
    | some best => if rental.createdAt < best.createdAt then some best else some rental

theorem newest_mem {rows : List Rental} {rental : Rental} (h : newest rows = some rental) :
    rental ∈ rows := by
  induction rows with
  | nil => cases h
  | cons row rest ih =>
    simp only [newest] at h
    cases hr : newest rest with
    | none =>
      simp only [hr] at h
      rw [Option.some.inj h]
      exact List.mem_cons_self
    | some best =>
      simp only [hr] at h
      split at h
      · exact List.mem_cons_of_mem _ (ih (hr.trans h))
      · rw [Option.some.inj h]
        exact List.mem_cons_self

/-- A row created after all others is the newest. -/
theorem newest_append {rows : List Rental} {rental : Rental}
    (later : ∀ row ∈ rows, row.createdAt < rental.createdAt) :
    newest (rows ++ [rental]) = some rental := by
  induction rows with
  | nil => rfl
  | cons row rest ih =>
    simp only [List.cons_append, newest, ih fun r hr => later r (List.mem_cons_of_mem _ hr)]
    rw [if_pos (later row List.mem_cons_self)]

/-- A change that keeps the creation dates keeps the order. -/
theorem newest_map {change : Rental → Rental}
    (kept : ∀ row, (change row).createdAt = row.createdAt) (rows : List Rental) :
    newest (rows.map change) = (newest rows).map change := by
  induction rows with
  | nil => rfl
  | cons row rest ih =>
    simp only [List.map_cons, newest, ih]
    cases newest rest with
    | none => rfl
    | some best =>
      simp only [Option.map_some, kept]
      split <;> rfl

structure RentalsTables where
  rentals : Table Rental Rental.id
  extensions : Table RentalExtension RentalExtension.id

namespace RentalsTables

def empty : RentalsTables := ⟨.empty, .empty⟩

def findById (tables : RentalsTables) (id : Nat) : Option Rental := tables.rentals.find? id

/-- The rows of a reader and a book that are not deleted. -/
def ofPair (tables : RentalsTables) (userId bookId : String) : List Rental :=
  tables.rentals.rows.filter fun r =>
    r.userId = userId ∧ r.bookId = bookId ∧ r.deletedAt = none

def findByUserAndBook (tables : RentalsTables) (userId bookId : String) : Option Rental :=
  newest (tables.ofPair userId bookId)

def create (tables : RentalsTables) (now : Int) (userId bookId : String) (durationDays : Rat) :
    Rental × RentalsTables :=
  let row := fun id =>
    { id, userId, bookId, status := .active, startDate := now, endDate := addDays now durationDays,
      extendedCount := 0, maxExtensions := 2, returnedAt := none, deletedAt := none,
      createdAt := now : Rental }
  (row tables.rentals.next, { tables with rentals := tables.rentals.insert row fun _ => rfl })

def update (tables : RentalsTables) (id : Nat) (patch : RentalPatch) : RentalsTables :=
  { tables with rentals := tables.rentals.modify id patch.apply patch.apply_id }

def createExtension (tables : RentalsTables) (rentalId : Nat) (previousEndDate newEndDate : Int)
    (extensionDays : Rat) : RentalsTables :=
  { tables with
    extensions := tables.extensions.insert
      (fun id => { id, rentalId, previousEndDate, newEndDate, extensionDays }) fun _ => rfl }

def findOverdue (tables : RentalsTables) (now : Int) : List Rental :=
  tables.rentals.rows.filter fun r => r.status = .active ∧ r.endDate < now ∧ r.deletedAt = none

/-- The rental that entitles the reader to read the book now, judged by its end date. -/
def findActiveRentalForBook (tables : RentalsTables) (now : Int) (userId bookId : String) :
    Option Rental :=
  match tables.findByUserAndBook userId bookId with
  | none => none
  | some rental =>
    if rental.deletedAt.isSome then none
    else if rental.status ≠ .active then none
    else if rental.endDate ≤ now then none
    else some rental

/-- The rental a request names, if it is the reader's. -/
def ownRental (tables : RentalsTables) (id : Nat) (userId : String) : Except Failure Rental :=
  match tables.findById id with
  | none => .error (.notFound "Rental not found")
  | some rental =>
    if rental.deletedAt.isSome then .error (.notFound "Rental not found")
    else if rental.userId ≠ userId then
      .error (.forbidden "You do not have access to this rental")
    else .ok rental

/-- The checks of `extendRental` before the charge. -/
def extendableRental (tables : RentalsTables) (id : Nat) (extensionDays : Int) (userId : String) :
    Except Failure Rental := do
  let rental ← tables.ownRental id userId
  if rental.status ≠ .active then
    throw (.forbidden "Cannot extend a non-active rental")
  if rental.extendedCount ≥ rental.maxExtensions then
    throw (.forbidden "Maximum extensions reached for this rental")
  if extensionDays ∉ RENTAL_DURATION_DAYS then
    throw (.badRequest
      "Invalid extension duration. Allowed values: 1, 3, 7, 14, 30, 90 days")
  return rental

section Lookups
variable {tables : RentalsTables} {userId bookId : String}

theorem findByUserAndBook_spec {rental : Rental}
    (h : tables.findByUserAndBook userId bookId = some rental) :
    tables.findById rental.id = some rental ∧ rental.userId = userId ∧ rental.bookId = bookId ∧
      rental.deletedAt = none := by
  have listed := newest_mem h
  have row := List.of_mem_filter listed
  simp only [Bool.decide_and, Bool.and_eq_true, decide_eq_true_eq] at row
  exact ⟨Table.find?_eq_some_iff.mpr ⟨List.mem_of_mem_filter listed, rfl⟩, row⟩

/-- An update changes what a lookup by the pair returns only if it is of that row. -/
theorem findByUserAndBook_update (tables : RentalsTables) (id : Nat) (patch : RentalPatch)
    (userId bookId : String) :
    (tables.update id patch).findByUserAndBook userId bookId =
      (tables.findByUserAndBook userId bookId).map fun row =>
        if row.id = id then patch.apply row else row := by
  have rows : (tables.update id patch).ofPair userId bookId =
      (tables.ofPair userId bookId).map fun row => if row.id = id then patch.apply row else row := by
    simp only [ofPair, update, Table.modify, List.filter_map]
    congr 1
    refine List.filter_congr fun row _ => ?_
    simp only [Function.comp]
    split <;> rfl
  rw [findByUserAndBook, rows, newest_map, findByUserAndBook]
  intro row
  split <;> rfl

theorem findByUserAndBook_update_ne {id : Nat} {patch : RentalPatch} {rental : Rental}
    (found : tables.findByUserAndBook userId bookId = some rental) (other : rental.id ≠ id) :
    (tables.update id patch).findByUserAndBook userId bookId = some rental := by
  rw [findByUserAndBook_update, found, Option.map_some, if_neg other]

theorem findByUserAndBook_create_ne {now : Int} {days : Rat} {userId' bookId' : String}
    (other : (userId', bookId') ≠ (userId, bookId)) :
    (tables.create now userId bookId days).2.findByUserAndBook userId' bookId' =
      tables.findByUserAndBook userId' bookId' := by
  have rows : (tables.create now userId bookId days).2.ofPair userId' bookId' =
      tables.ofPair userId' bookId' := by
    have apart : ¬ (userId = userId' ∧ bookId = bookId') := by
      rintro ⟨rfl, rfl⟩
      exact other rfl
    simp only [ofPair, create, Table.insert_rows, List.filter_append]
    simpa [List.filter_cons] using fun reader book => absurd ⟨reader, book⟩ apart
  rw [findByUserAndBook, rows, findByUserAndBook]

end Lookups

end RentalsTables
end Rentals
