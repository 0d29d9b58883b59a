import Hakawi.Effects.Pool
import Hakawi.Rentals.EventHandler

/-!
# The rentals handlers, call by call

The listeners, the return and the sweep as programs over single repository calls,
so that several of them can interleave. Run alone, each leaves what the function
of the same name leaves. The history is kept for the proofs alone: it says which
rows were created and which payment each extension was written for, and no
handler reads it.
-/

namespace Rentals.Stepwise

open Common Payments Store Effects
open Library (RentalEvent)

/-- An extension that was written: the rental, the payment behind it, its days. -/
structure Extension where
  rentalId : Nat
  paymentId : Nat
  days : Rat
  deriving DecidableEq

inductive Write where
  | created (rental : Rental)
  | extended (extension : Extension)

structure System where
  now : Int
  ledger : Ledger
  tables : RentalsTables
  events : List RentalEvent
  history : List Write

inductive Call where
  | findPayment (id : Nat)
  | findById (id : Nat)
  | findByUserAndBook (userId bookId : String)
  | findOverdue
  | create (userId bookId : String) (durationDays : Rat)
  | createExtension (rentalId : Nat) (previousEndDate newEndDate : Int) (extensionDays : Rat)
  | update (id : Nat) (patch : RentalPatch) (extension : Option Extension)
  | readClock
  | emit (event : RentalEvent)

abbrev Call.Answer : Call → Type
  | .findPayment _ => Option Payment
  | .findById _ => Option Rental
  | .findByUserAndBook _ _ => Option Rental
  | .findOverdue => List Rental
  | .create _ _ _ => Rental
  | .createExtension _ _ _ _ => Unit
  | .update _ _ _ => Unit
  | .readClock => Int
  | .emit _ => Unit

def System.perform (system : System) : (call : Call) → call.Answer × System
  | .findPayment id => (system.ledger.findById id, system)
  | .findById id => (system.tables.findById id, system)
  | .findByUserAndBook userId bookId => (system.tables.findByUserAndBook userId bookId, system)
  | .findOverdue => (system.tables.findOverdue system.now, system)
  | .create userId bookId durationDays =>
    let created := system.tables.create system.now userId bookId durationDays
    (created.1, { system with
      tables := created.2, history := system.history ++ [.created created.1] })
  | .createExtension rentalId previousEndDate newEndDate extensionDays =>
    ((), { system with
      tables := system.tables.createExtension rentalId previousEndDate newEndDate extensionDays })
  | .update id patch extension =>
    ((), { system with
      tables := system.tables.update id patch
      history := system.history ++ extension.toList.map .extended })
  | .readClock => (system.now, system)
  | .emit event => ((), { system with events := system.events ++ [event] })

/-- Some time passes before the call. -/
def exec (elapsed : Nat) (system : System) (call : Call) : call.Answer × System :=
  System.perform { system with now := system.now + elapsed } call

abbrev Handler (α : Type) : Type := Fallible Call Call.Answer Failure α

@[simp] def call (op : Call) : Handler op.Answer :=
  ExceptT.mk (.call op fun answer => .done (.ok answer))

section Handlers

def applyExtension (payment : Payment) : Handler Unit :=
  match (payment.metaString "rentalId").bind readId, metaDays payment "extensionDays" with
  | some rentalId, some extensionDays => do
    match ← call (.findById rentalId) with
    | none => return
    | some rental =>
      if rental.deletedAt.isSome ∨ rental.userId ≠ payment.userId ∨
          rental.extendedCount ≥ rental.maxExtensions then return
      else do
        let newEndDate := addDays rental.endDate extensionDays
        call (.createExtension rentalId rental.endDate newEndDate extensionDays)
        call (.update rentalId
          { endDate := some newEndDate, extendedCount := some (rental.extendedCount + 1) }
          (some ⟨rentalId, payment.id, extensionDays⟩))
        call (.emit (.extended rentalId))
  | _, _ => return

def grantRental (payment : Payment) : Handler Unit :=
  match payment.metaBookId, metaDays payment "durationDays" with
  | some bookId, some durationDays => do
    let existing ← call (.findByUserAndBook payment.userId bookId)
    if existing.map Rental.status = some .active then return
    else do
      let rental ← call (.create payment.userId bookId durationDays)
      call (.emit (.created rental.id payment.userId bookId))
  | _, _ => return

def handlePaymentCompleted (paymentId : Nat) : Handler Unit := do
  match ← call (.findPayment paymentId) with
  | none => throw (.notFound s!"Payment {paymentId} not found while granting a rental")
  | some payment =>
    if payment.metaString "type" = some "rental_extension" then applyExtension payment
    else if payment.metaString "type" = some "rental" then grantRental payment
    else return

def revokeRental (payment : Payment) : Handler Unit :=
  match payment.metaBookId with
  | none => return
  | some bookId => do
    match ← call (.findByUserAndBook payment.userId bookId) with
    | none => return
    | some rental =>
      if rental.deletedAt.isSome ∨ rental.status = .expired ∨ rental.status = .returned then return
      else do
        call (.update rental.id { status := some .expired } none)
        call (.emit (.expired rental.id))

def handleRefundCompleted (paymentId : Nat) : Handler Unit := do
  match ← call (.findPayment paymentId) with
  | none => throw (.notFound s!"Payment {paymentId} not found while revoking a rental")
  | some payment =>
    if payment.metaString "type" = some "rental" then revokeRental payment else return

/-- The rental that was found, if it is the reader's. -/
def ownRental (found : Option Rental) (userId : String) : Except Failure Rental :=
  match found with
  | none => .error (.notFound "Rental not found")
  | some rental =>
    if rental.deletedAt.isSome then .error (.notFound "Rental not found")
    else if rental.userId ≠ userId then
      .error (.forbidden "You do not have access to this rental")
    else .ok rental

theorem ownRental_ok {found : Option Rental} {userId : String} {rental : Rental}
    (h : ownRental found userId = .ok rental) : found = some rental ∧ rental.userId = userId := by
  cases found with
  | none => cases h
  | some row =>
    simp only [ownRental] at h
    split at h
    · cases h
    · split at h
      · cases h
      · rename_i reader
        obtain rfl := Except.ok.inj h
        exact ⟨rfl, not_not.mp reader⟩

def returnRental (id : Nat) (userId : String) : Handler Unit := do
  let rental ← ownRental (← call (.findById id)) userId
  if rental.status = .returned then
    throw (.forbidden "Rental has already been returned")
  else do
    let returnedAt ← call .readClock
    call (.update id { status := some .returned, returnedAt := some (some returnedAt) } none)
    call (.emit (.returned id))

/-- Every rental of the list is expired in turn, whatever has become of it since. -/
def expireAll : List Rental → Handler Unit
  | [] => return
  | rental :: rest => do
    call (.update rental.id { status := some .expired } none)
    call (.emit (.expired rental.id))
    expireAll rest

def checkAndExpireOverdue : Handler Unit := do
  expireAll (← call .findOverdue)

end Handlers

/-- What the rentals module can be asked to do. -/
inductive Task where
  | paymentCompleted (paymentId : Nat)
  | refundCompleted (paymentId : Nat)
  | returnRental (id : Nat) (userId : String)
  | sweep
  deriving DecidableEq

def Task.handler : Task → Handler Unit
  | .paymentCompleted paymentId => handlePaymentCompleted paymentId
  | .refundCompleted paymentId => handleRefundCompleted paymentId
  | .returnRental id userId => Stepwise.returnRental id userId
  | .sweep => checkAndExpireOverdue

/-- The requests and events at hand, none of them begun. -/
def pool (system : System) (tasks : List Task) :
    Pool System Call Call.Answer (Except Failure Unit) :=
  ⟨system, tasks.map fun task => task.handler.run⟩

/-- There are payments, and no rental yet. -/
def System.opening (ledger : Ledger) (now : Int) : System := ⟨now, ledger, .empty, [], []⟩

/-- Completed payments of one reader. -/
def System.charged (sales : List Json) : System :=
  .opening (sales.foldl (fun ledger sale =>
    (ledger.create ⟨"reader", 1000, RENTAL_CURRENCY, .completed, some sale⟩).2) .empty) 0

def rentalSale (days : Int) : Json :=
  .obj [("bookId", .str "novel"), ("type", .str "rental"), ("durationDays", .int days)]

def extensionSale (rentalId : Nat) (days : Int) : Json :=
  .obj [("rentalId", .str (toString rentalId)), ("bookId", .str "novel"),
    ("type", .str "rental_extension"), ("extensionDays", .int days)]

section Alone
variable {system : System}

/-- The same tables and announcements as a handler that runs in one go. -/
def Leaves (before after : System) : Except Failure (RentalsTables × List RentalEvent) → Prop
  | .ok result => after.tables = result.1 ∧ after.events = before.events ++ result.2
  | .error _ => after.tables = before.tables ∧ after.events = before.events

def Task.function (system : System) : Task → Except Failure (RentalsTables × List RentalEvent)
  | .paymentCompleted paymentId =>
    Rentals.handlePaymentCompleted system.ledger system.tables system.now paymentId
  | .refundCompleted paymentId =>
    Rentals.handleRefundCompleted system.ledger system.tables paymentId
  | .returnRental id userId => Rentals.returnRental system.tables system.now id userId
  | .sweep => .ok (Rentals.checkAndExpireOverdue system.tables system.now)

theorem Leaves.nothing (system : System) : Leaves system system (.ok (system.tables, [])) :=
  ⟨rfl, (List.append_nil _).symm⟩

/-- The execution of one handler alone, with the clock standing still. -/
def still : Program.OpSpec Call Call.Answer System := Program.execSpec exec (· = 0)

@[simp] theorem still_eq (op : Call) (Q : op.Answer → System → Prop) (system : System) :
    still op Q system ↔ Q (system.perform op).1 (system.perform op).2 := by
  simp [still, Program.execSpec, exec]

theorem applyExtension_alone (payment : Payment) :
    wpE still (applyExtension payment) (fun _ after =>
      Leaves system after (.ok (Rentals.applyExtension system.tables payment))) system := by
  unfold applyExtension Rentals.applyExtension
  cases (payment.metaString "rentalId").bind readId with
  | none => exact .nothing system
  | some rentalId =>
    cases metaDays payment "extensionDays" with
    | none => exact .nothing system
    | some extensionDays =>
      simp only [wpE_bind, call, wpE_mk_call, Program.wp_done, still_eq, System.perform]
      cases system.tables.findById rentalId with
      | none => exact .nothing system
      | some rental =>
        simp only [wpE_ite, wpE_pure, wpE_bind, wpE_mk_call, Program.wp_done, still_eq,
          System.perform]
        split
        · exact .nothing system
        · exact ⟨rfl, rfl⟩

theorem grantRental_alone (payment : Payment) :
    wpE still (grantRental payment) (fun _ after =>
      Leaves system after (.ok (Rentals.grantRental system.tables system.now payment))) system := by
  unfold grantRental Rentals.grantRental
  cases payment.metaBookId with
  | none => exact .nothing system
  | some bookId =>
    cases metaDays payment "durationDays" with
    | none => exact .nothing system
    | some durationDays =>
      simp only [wpE_bind, call, wpE_mk_call, Program.wp_done, still_eq, System.perform, wpE_ite, wpE_pure]
      split
      · exact .nothing system
      · exact ⟨rfl, rfl⟩

theorem revokeRental_alone (payment : Payment) :
    wpE still (revokeRental payment) (fun _ after =>
      Leaves system after (.ok (Rentals.revokeRental system.tables payment))) system := by
  unfold revokeRental Rentals.revokeRental
  cases payment.metaBookId with
  | none => exact .nothing system
  | some bookId =>
    simp only [wpE_bind, call, wpE_mk_call, Program.wp_done, still_eq, System.perform]
    cases system.tables.findByUserAndBook payment.userId bookId with
    | none => exact .nothing system
    | some rental =>
      simp only [wpE_ite, wpE_pure, wpE_bind, wpE_mk_call, Program.wp_done, still_eq,
        System.perform]
      split
      · exact .nothing system
      · exact ⟨rfl, rfl⟩

theorem ownRental_eq (tables : RentalsTables) (id : Nat) (userId : String) :
    ownRental (tables.findById id) userId = tables.ownRental id userId := by
  unfold ownRental RentalsTables.ownRental
  rfl

theorem returnRental_alone (id : Nat) (userId : String) :
    wpE still (returnRental id userId) (fun _ after => Leaves system after
      (Rentals.returnRental system.tables system.now id userId)) system := by
  simp only [returnRental, Rentals.returnRental, wpE_bind, call, wpE_mk_call, Program.wp_done, still_eq, System.perform,
    wpE_liftM, ownRental_eq]
  cases system.tables.ownRental id userId with
  | error e => exact ⟨rfl, rfl⟩
  | ok rental =>
    simp only [wpE_ite, wpE_throw, wpE_bind, wpE_mk_call, Program.wp_done, still_eq,
      System.perform]
    by_cases ended : rental.status = .returned
    · rw [if_pos ended]
      simp [Leaves, bind, Except.bind, ended, throw, throwThe, MonadExceptOf.throw]
    · rw [if_neg ended]
      simp [Leaves, bind, Except.bind, ended, pure, Except.pure]

theorem expireAll_alone (overdue : List Rental) :
    wpE still (expireAll overdue) (fun _ after => Leaves system after (.ok
      (overdue.foldl (fun swept rental => swept.update rental.id { status := some .expired })
        system.tables, overdue.map fun rental => .expired rental.id))) system := by
  induction overdue generalizing system with
  | nil => exact .nothing system
  | cons rental rest ih =>
    simp only [expireAll, wpE_bind, call, wpE_mk_call, Program.wp_done, still_eq, System.perform]
    refine Program.wp_mono (Program.execSpec_monotone _ _) (fun _ after leaves => ?_) ih
    obtain ⟨tables, events⟩ := leaves
    refine ⟨tables, ?_⟩
    rw [events, List.map_cons, List.append_assoc, List.singleton_append]

/-- A handler that is not interrupted does what its function says. -/
theorem Task.alone (task : Task) (system : System) :
    Leaves system (task.handler.run.eval exec (fun _ => 0) system).2 (task.function system) := by
  have handles : wpE still task.handler (fun _ after =>
      Leaves system after (task.function system)) system := by
    cases task with
    | paymentCompleted paymentId =>
      simp only [handler, function, handlePaymentCompleted, Rentals.handlePaymentCompleted,
        wpE_bind, call, wpE_mk_call, Program.wp_done, still_eq, System.perform]
      cases system.ledger.findById paymentId with
      | none => exact ⟨rfl, rfl⟩
      | some payment =>
        simp only [wpE_ite]
        split
        · exact applyExtension_alone payment
        · split
          · exact grantRental_alone payment
          · exact .nothing system
    | refundCompleted paymentId =>
      simp only [handler, function, handleRefundCompleted, Rentals.handleRefundCompleted,
        wpE_bind, call, wpE_mk_call, Program.wp_done, still_eq, System.perform]
      cases system.ledger.findById paymentId with
      | none => exact ⟨rfl, rfl⟩
      | some payment =>
        simp only [wpE_ite]
        split
        · exact revokeRental_alone payment
        · exact .nothing system
    | returnRental id userId => exact returnRental_alone id userId
    | sweep =>
      simp only [handler, function, checkAndExpireOverdue, wpE_bind, call, wpE_mk_call,
        Program.wp_done, still_eq, System.perform]
      exact expireAll_alone _
  exact Program.eval_of_wp handles fun _ => rfl

end Alone

end Rentals.Stepwise
