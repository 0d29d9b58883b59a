import Hakawi.Common.ValkeyCalls
import Hakawi.Entitlements.World

/-!
# The library, call by call

What the shelf does in one step is here a program over the calls of the repository: a lookup, the
write that follows from it and the announcement are three calls, and others may come in between.
-/

namespace Library
open Common Payments Store Effects
open Entitlements (Book)

inductive Call where
  | findPayment (id : Nat)
  | findBook (id : String)
  | findByUserAndBook (userId bookId : String)
  | findByRentalId (rentalId : Nat)
  | findById (id : Nat)
  | create (userId bookId : String) (rentalId : Option Nat) (status : LibraryStatus)
  | delete (id : Nat)
  /-- `valkeyService.del` of the entry -/
  | forget (id : Nat)
  | emit (event : LibraryEvent)

namespace Call

abbrev Value : Call → Type
  | findPayment _ => Option Payment
  | findBook _ => Option Book
  | findByUserAndBook _ _ | findByRentalId _ | findById _ => Option LibraryItem
  | create _ _ _ _ => LibraryItem
  | delete _ | forget _ | emit _ => Unit

abbrev Answer (call : Call) : Type := Except Failure call.Value

end Call

/-- The payments, the books and the shelf. -/
structure World where
  ledger : Ledger
  books : List Book
  shelf : Shelf

/-- What the environment decides at a call. -/
structure Choice where
  outcome : Outcome := .performed
  /-- Which of the rows that match comes first. -/
  pick : Nat := 0

namespace World

def perform (choice : Choice) (world : World) : (call : Call) → call.Answer × World
  | .findPayment id => (.ok (world.ledger.findById id), world)
  | .findBook id => (.ok (world.books.find? (·.id = id)), world)
  | .findByUserAndBook userId bookId =>
    (.ok (limitOne (world.shelf.items.rows.filter fun item =>
      item.userId = userId ∧ item.bookId = bookId) choice.pick), world)
  | .findByRentalId rentalId =>
    (.ok (limitOne (world.shelf.items.rows.filter (·.rentalId = some rentalId)) choice.pick), world)
  | .findById id => (.ok (world.shelf.findById id), world)
  | .create userId bookId rentalId status =>
    let created := world.shelf.create userId bookId rentalId status
    (.ok created.1, { world with shelf := created.2 })
  | .delete id => (.ok (), { world with shelf := world.shelf.delete id })
  | .forget _ => (.ok (), world)
  | .emit event => (.ok (), { world with shelf := world.shelf.announce event })

end World

/-- A call that fails may have been performed. -/
def exec (choice : Choice) (world : World) (call : Call) : call.Answer × World :=
  match choice.outcome with
  | .refused => (.error disconnected, world)
  | .lost => (.error disconnected, (world.perform choice call).2)
  | .performed => world.perform choice call

abbrev Method (α : Type) : Type := Fallible Call Call.Answer Failure α

def call (op : Call) : Method op.Value := ExceptT.mk (.call op .done)

namespace LibraryService

def addToLibrary (userId bookId : String) (rentalId : Option Nat) : Method LibraryItem := do
  match ← call (.findByUserAndBook userId bookId) with
  | some _ => throw (.conflict "Book already in library")
  | none =>
    let item ← call (.create userId bookId rentalId
      (if rentalId.isSome then .rented else .owned))
    call (.emit (.itemAdded item.id userId bookId))
    return item

def claimFreeBook (userId bookId : String) : Method LibraryItem := do
  match ← call (.findBook bookId) with
  | none => throw (.notFound "Book not found")
  | some book =>
    if book.deletedAt.isSome then throw (.notFound "Book not found")
    else if book.isFree = false then
      throw (.forbidden "This book is not free. Purchase it to add it to your library.")
    else addToLibrary userId bookId none

def removeFromLibrary (id : Nat) (userId : String) : Method Unit := do
  match ← call (.findById id) with
  | none => throw (.notFound "Library item not found")
  | some item =>
    if item.userId ≠ userId then throw (.notFound "Library item not found")
    else
      call (.delete id)
      call (.forget id)
      call (.emit (.itemRemoved id userId))

def removeBookForRefund (userId bookId : String) : Method Bool := do
  match ← call (.findByUserAndBook userId bookId) with
  | none => return false
  | some item =>
    tryCatch (do removeFromLibrary item.id userId; return true) fun error =>
      match error with
      | .http .notFound _ => return false
      | _ => throw error

end LibraryService

namespace LibraryEventHandler
open LibraryService

def handlePaymentCompleted (paymentId : Nat) : Method Unit := do
  match ← call (.findPayment paymentId) with
  | none => throw (.notFound s!"Payment {paymentId} not found while granting entitlement")
  | some payment =>
    if payment.metaString "type" ≠ some "purchase" then return ()
    else match payment.metaBookId with
      | none => return ()
      | some bookId =>
        match ← call (.findByUserAndBook payment.userId bookId) with
        | some _ => return ()
        | none =>
          let item ← call (.create payment.userId bookId none .owned)
          call (.emit (.itemAdded item.id payment.userId bookId))

def handleRefundCompleted (paymentId : Nat) : Method Unit := do
  match ← call (.findPayment paymentId) with
  | none => throw (.notFound s!"Payment {paymentId} not found while revoking an entitlement")
  | some payment =>
    if payment.metaString "type" ≠ some "purchase" then return ()
    else match payment.metaBookId with
      | none => return ()
      | some bookId => let _ ← removeBookForRefund payment.userId bookId

def handleRentalCreated (rentalId : Nat) (userId bookId : String) : Method Unit := do
  match ← call (.findByRentalId rentalId) with
  | some _ => return ()
  | none =>
    match ← call (.findByUserAndBook userId bookId) with
    | some _ => return ()
    | none =>
      tryCatch (do let _ ← addToLibrary userId bookId (some rentalId)) fun error =>
        match error with
        | .http .conflict _ => return ()
        | _ => throw error

def withdrawRentalAccess (rentalId : Nat) : Method Unit := do
  match ← call (.findByRentalId rentalId) with
  | none => return ()
  | some granted => let _ ← removeBookForRefund granted.userId granted.bookId

def handleRentalReturned (rentalId : Nat) : Method Unit := withdrawRentalAccess rentalId

def handleRentalExpired (rentalId : Nat) : Method Unit := withdrawRentalAccess rentalId

end LibraryEventHandler

/-- What is asked of the library. -/
inductive Request where
  | paymentCompleted (paymentId : Nat)
  | refundCompleted (paymentId : Nat)
  | rentalCreated (rentalId : Nat) (userId bookId : String)
  | rentalReturned (rentalId : Nat)
  | rentalExpired (rentalId : Nat)
  | claimFreeBook (userId bookId : String)
  deriving DecidableEq

def Request.run : Request → Method Unit
  | paymentCompleted paymentId => LibraryEventHandler.handlePaymentCompleted paymentId
  | refundCompleted paymentId => LibraryEventHandler.handleRefundCompleted paymentId
  | rentalCreated rentalId userId bookId =>
    LibraryEventHandler.handleRentalCreated rentalId userId bookId
  | rentalReturned rentalId => LibraryEventHandler.handleRentalReturned rentalId
  | rentalExpired rentalId => LibraryEventHandler.handleRentalExpired rentalId
  | claimFreeBook userId bookId => do let _ ← LibraryService.claimFreeBook userId bookId

section Alone

/-- A program that nothing comes in between, and whose lookups find the first row. -/
def alone {α : Type} (p : Method α) (world : World) : Except Failure α × World :=
  p.run.eval exec (fun _ => {}) world

theorem alone_call {α : Type} (op : Call) (next : op.Value → Method α) (world : World) :
    alone (call op >>= next) world = match world.perform {} op with
      | (.ok value, after) => alone (next value) after
      | (.error e, after) => (.error e, after) := by
  change ((call op).run >>= ExceptT.bindCont next).eval exec _ world = _
  rw [Program.eval_bind]
  change (ExceptT.bindCont next (world.perform {} op).1 : Program _ _ _).eval exec _
    (world.perform {} op).2 = _
  rcases world.perform {} op with ⟨answer, after⟩
  cases answer <;> rfl

theorem alone_bind {α β : Type} (p : Method α) (f : α → Method β) (world : World) :
    alone (p >>= f) world = match alone p world with
      | (.ok a, after) => alone (f a) after
      | (.error e, after) => (.error e, after) := by
  change (p.run >>= ExceptT.bindCont f).eval exec _ world = _
  rw [Program.eval_bind, alone]
  rcases p.run.eval exec (fun _ => {}) world with ⟨answer, after⟩
  cases answer <;> rfl

theorem alone_tryCatch {α : Type} (p : Method α) (handler : Failure → Method α) (world : World) :
    alone (tryCatch p handler) world = match alone p world with
      | (.ok a, after) => (.ok a, after)
      | (.error e, after) => alone (handler e) after := by
  rw [alone, eval_tryCatch, alone]
  rcases p.run.eval exec (fun _ => {}) world with ⟨answer, after⟩
  cases answer <;> rfl

/-- What a request comes to, in one step on the shelf. -/
def settled {α β : Type} (world : World) (shelf : β → Shelf) (answer : β → α) :
    Except Failure β → Except Failure α × World
  | .ok result => (.ok (answer result), { world with shelf := shelf result })
  | .error e => (.error e, world)

variable (world : World)

theorem addToLibrary_alone (userId bookId : String) (rentalId : Option Nat) :
    alone (LibraryService.addToLibrary userId bookId rentalId) world =
      settled world Prod.snd Prod.fst (world.shelf.addToLibrary userId bookId rentalId) := by
  rw [LibraryService.addToLibrary, alone_call, Shelf.addToLibrary, Shelf.findByUserAndBook]
  simp only [World.perform, limitOne_zero]
  cases world.shelf.items.rows.find? _ <;> rfl

theorem removeFromLibrary_alone (id : Nat) (userId : String) :
    alone (LibraryService.removeFromLibrary id userId) world =
      settled world (fun shelf => shelf) (fun _ => ())
        (world.shelf.removeFromLibrary id userId) := by
  rw [LibraryService.removeFromLibrary, alone_call, Shelf.removeFromLibrary]
  simp only [World.perform]
  cases world.shelf.findById id with
  | none => rfl
  | some item =>
    dsimp only
    split <;> rfl

theorem removeBookForRefund_alone (userId bookId : String) :
    alone (LibraryService.removeBookForRefund userId bookId) world =
      settled world Prod.snd Prod.fst (world.shelf.removeBookForRefund userId bookId) := by
  rw [LibraryService.removeBookForRefund, alone_call, Shelf.removeBookForRefund,
    Shelf.findByUserAndBook]
  simp only [World.perform, limitOne_zero]
  cases world.shelf.items.rows.find? _ with
  | none => rfl
  | some item =>
    dsimp only
    rw [alone_tryCatch, alone_bind, removeFromLibrary_alone]
    cases world.shelf.removeFromLibrary item.id userId with
    | ok shelf => rfl
    | error e =>
      cases e with
      | http status message => cases status <;> rfl
      | _ => rfl

/-- The step that a handler takes on the shelf, as if at once. -/
def Request.atOnce : Request → Except Failure Shelf
  | paymentCompleted paymentId => Library.handlePaymentCompleted world.ledger world.shelf paymentId
  | refundCompleted paymentId => Library.handleRefundCompleted world.ledger world.shelf paymentId
  | rentalCreated rentalId userId bookId => world.shelf.handleRentalCreated rentalId userId bookId
  | rentalReturned rentalId | rentalExpired rentalId => world.shelf.withdrawRentalAccess rentalId
  | claimFreeBook userId bookId =>
    match world.books.find? (·.id = bookId) with
    | none => .error (.notFound "Book not found")
    | some book =>
      if book.deletedAt.isSome then .error (.notFound "Book not found")
      else if book.isFree = false then
        .error (.forbidden "This book is not free. Purchase it to add it to your library.")
      else (world.shelf.addToLibrary userId bookId none).map Prod.snd

theorem withdrawRentalAccess_alone (rentalId : Nat) :
    alone (LibraryEventHandler.withdrawRentalAccess rentalId) world =
      settled world (fun shelf => shelf) (fun _ => ())
        (world.shelf.withdrawRentalAccess rentalId) := by
  rw [LibraryEventHandler.withdrawRentalAccess, alone_call, Shelf.withdrawRentalAccess,
    Shelf.findByRentalId]
  simp only [World.perform, limitOne_zero]
  cases world.shelf.items.rows.find? _ with
  | none => rfl
  | some granted =>
    dsimp only
    rw [alone_bind, removeBookForRefund_alone]
    cases world.shelf.removeBookForRefund granted.userId granted.bookId <;> rfl

/-- Left alone, a handler does what it does at once. -/
theorem request_alone (request : Request) :
    alone request.run world =
      settled world (fun shelf => shelf) (fun _ => ()) (request.atOnce world) := by
  cases request with
  | paymentCompleted paymentId =>
    change alone (LibraryEventHandler.handlePaymentCompleted paymentId) world = _
    rw [LibraryEventHandler.handlePaymentCompleted, alone_call, Request.atOnce,
      Library.handlePaymentCompleted]
    simp only [World.perform]
    cases world.ledger.findById paymentId with
    | none => rfl
    | some payment =>
      dsimp only
      split
      · rfl
      · cases payment.metaBookId with
        | none => rfl
        | some bookId =>
          dsimp only
          rw [alone_call, Shelf.findByUserAndBook]
          simp only [World.perform, limitOne_zero]
          cases world.shelf.items.rows.find? _ <;> rfl
  | refundCompleted paymentId =>
    change alone (LibraryEventHandler.handleRefundCompleted paymentId) world = _
    rw [LibraryEventHandler.handleRefundCompleted, alone_call, Request.atOnce,
      Library.handleRefundCompleted]
    simp only [World.perform]
    cases world.ledger.findById paymentId with
    | none => rfl
    | some payment =>
      dsimp only
      split
      · rfl
      · cases payment.metaBookId with
        | none => rfl
        | some bookId =>
          dsimp only
          rw [alone_bind, removeBookForRefund_alone]
          cases world.shelf.removeBookForRefund payment.userId bookId <;> rfl
  | rentalCreated rentalId userId bookId =>
    change alone (LibraryEventHandler.handleRentalCreated rentalId userId bookId) world = _
    rw [LibraryEventHandler.handleRentalCreated, alone_call, Request.atOnce,
      Shelf.handleRentalCreated, Shelf.findByRentalId]
    simp only [World.perform, limitOne_zero]
    cases world.shelf.items.rows.find? _ with
    | some item => rfl
    | none =>
      dsimp only
      rw [alone_call]
      simp only [World.perform, limitOne_zero]
      cases found : world.shelf.findByUserAndBook userId bookId with
      | some item =>
        rw [Shelf.findByUserAndBook] at found
        rw [found]
        rfl
      | none =>
        have absent := found
        rw [Shelf.findByUserAndBook] at absent
        rw [absent]
        dsimp only
        rw [alone_tryCatch, alone_bind, addToLibrary_alone]
        simp only [Shelf.addToLibrary, found]
        rfl
  | rentalReturned rentalId => exact withdrawRentalAccess_alone world rentalId
  | rentalExpired rentalId => exact withdrawRentalAccess_alone world rentalId
  | claimFreeBook userId bookId =>
    change alone (do let _ ← LibraryService.claimFreeBook userId bookId) world = _
    rw [alone_bind, LibraryService.claimFreeBook, alone_call, Request.atOnce]
    simp only [World.perform]
    cases world.books.find? _ with
    | none => rfl
    | some book =>
      dsimp only
      by_cases deleted : book.deletedAt.isSome = true
      · rw [if_pos deleted, if_pos deleted]
        rfl
      rw [if_neg deleted, if_neg deleted]
      by_cases priced : book.isFree = false
      · rw [if_pos priced, if_pos priced]
        rfl
      rw [if_neg priced, if_neg priced, addToLibrary_alone]
      cases world.shelf.addToLibrary userId bookId none <;> rfl

end Alone
end Library
