import Hakawi.Entitlements.World

/-!
# What the listeners do to the shelf

A completed payment takes nothing off the shelf. A settled refund takes the entry
of the pair that was purchased, or the entry that names the pair's newest rental,
and the end of a rental takes the entry that names it.
-/

namespace Entitlements

open Common Payments Rentals Library

theorem hearRentalEvents_hears {shelf : Shelf} (sound : shelf.Sound) (events : List RentalEvent) :
    Shelf.Hears events shelf (hearRentalEvents shelf events) := by
  unfold hearRentalEvents
  induction events generalizing shelf with
  | nil => exact .refl sound []
  | cons event rest ih =>
    obtain ⟨heard, he, hears⟩ := Shelf.handleRentalEvent_hears sound event
    simp only [List.foldl_cons, he, settledOr]
    exact hears.cons (ih hears.sound)

/-- Endings take the entries that name the rentals that end. -/
theorem hearEndings_keeps {shelf : Shelf} (sound : shelf.Sound) {events : List RentalEvent}
    (endings : ∀ event ∈ events, event.ending.isSome) :
    Shelf.Keeps (fun item => ∀ event ∈ events, item.rentalId ≠ event.ending) shelf
      (hearRentalEvents shelf events) := by
  unfold hearRentalEvents
  induction events generalizing shelf with
  | nil => exact .all fun _ _ => nofun
  | cons event rest ih =>
    obtain ⟨heard, he, keeps⟩ : ∃ heard, shelf.handleRentalEvent event = .ok heard ∧
        Shelf.Keeps (·.rentalId ≠ event.ending) shelf heard := by
      have ends := endings event List.mem_cons_self
      cases event with
      | returned rentalId => exact Shelf.withdrawRentalAccess_keeps sound rentalId
      | expired rentalId => exact Shelf.withdrawRentalAccess_keeps sound rentalId
      | created rentalId userId bookId => cases ends
      | extended rentalId => cases ends
    have later := ih (keeps.sound sound) fun e listed => endings e (List.mem_cons_of_mem _ listed)
    have step : settledOr shelf (shelf.handleRentalEvent event) = heard := by rw [he]; rfl
    rw [List.foldl_cons, step]
    intro item
    rw [later item, keeps item]
    simp only [List.forall_mem_cons, and_assoc]

namespace World
variable {world after : World} {request : Request} {pair : String × String}

theorem completion_events (world : World) (id : Nat) :
    world.rentals.rentals.next ≤ (world.completion id).1.rentals.next ∧
      ∀ event ∈ (world.completion id).2, event.ending = none ∧
        ∀ rentalId userId bookId, event = .created rentalId userId bookId →
          rentalId = world.rentals.rentals.next ∧
            world.rentals.rentals.next < (world.completion id).1.rentals.next := by
  unfold completion
  cases h : Rentals.handlePaymentCompleted world.ledger world.rentals world.now id with
  | error e => exact ⟨le_refl _, nofun⟩
  | ok result => exact handlePaymentCompleted_events h

theorem completion_purchase {id : Nat} {payment : Payment}
    (found : world.ledger.findById id = some payment)
    (purchase : payment.pairFor "purchase" = some pair) :
    world.completion id = (world.rentals, []) := by
  have type := (Payment.pairFor_eq_some.mp purchase).1
  simp [completion, settledOr, Rentals.handlePaymentCompleted, found, type]

theorem completion_keeps (sound : world.shelf.Sound) (id : Nat) :
    ∀ item ∈ world.shelf.items.rows,
      item ∈ (world.afterRentals (world.completion id)).shelf.items.rows := by
  intro item hm
  refine (hearRentalEvents_hears sound _).survives item hm fun event he rentalId ending => ?_
  rw [((completion_events world id).2 event he).1] at ending
  cases ending

/-- The library adds to what the rentals module left, and names no rental. -/
theorem onPaymentCompleted_adds (sound : world.shelf.Sound) (id : Nat) :
    let heard := (world.afterRentals (world.completion id)).shelf
    let after := (world.onPaymentCompleted id).shelf
    after.Sound ∧ (∀ item ∈ heard.items.rows, item ∈ after.items.rows) ∧
      ∀ item ∈ after.items.rows, item ∈ heard.items.rows ∨ item.rentalId = none := by
  intro heard after
  have soundHeard : heard.Sound := (hearRentalEvents_hears sound _).sound
  have same : after = settledOr heard (Library.handlePaymentCompleted world.ledger heard id) := rfl
  cases found : world.ledger.findById id with
  | none =>
    simp only [Library.handlePaymentCompleted, found, settledOr] at same
    rw [same]
    exact ⟨soundHeard, fun _ hm => hm, fun _ hm => Or.inl hm⟩
  | some payment =>
    cases purchase : payment.pairFor "purchase" with
    | none =>
      rw [handlePaymentCompleted_other found purchase] at same
      rw [same]
      exact ⟨soundHeard, fun _ hm => hm, fun _ hm => Or.inl hm⟩
    | some pair =>
      obtain ⟨granted, he, grants⟩ := handlePaymentCompleted_grants heard found purchase
      rw [he] at same
      rw [same]
      exact ⟨grants.sound (fun _ => rfl) soundHeard, grants.kept, grants.origin⟩

/-- A purchase that completes finds an entry of its pair, or adds an owned one. -/
theorem onPaymentCompleted_grants {id : Nat} {payment : Payment}
    (found : world.ledger.findById id = some payment)
    (purchase : payment.pairFor "purchase" = some pair) :
    Shelf.Grants pair none .owned world.shelf (world.onPaymentCompleted id).shelf := by
  obtain ⟨granted, he, grants⟩ := handlePaymentCompleted_grants world.shelf found purchase
  have silent : (world.onPaymentCompleted id).shelf = granted := by
    simp only [onPaymentCompleted, completion_purchase found purchase, afterRentals,
      hearRentalEvents, List.foldl_nil, he, settledOr]
  exact silent ▸ grants

theorem revocation_events {id : Nat} {payment : Payment}
    (found : world.ledger.findById id = some payment) :
    (world.revocation id).1.rentals.next = world.rentals.rentals.next ∧
      ∀ event ∈ (world.revocation id).2, ∃ pair rental,
        payment.pairFor "rental" = some pair ∧
          world.rentals.findByUserAndBook pair.1 pair.2 = some rental ∧
          rental.status ≠ .expired ∧ rental.status ≠ .returned ∧ event = .expired rental.id := by
  obtain ⟨result, he, next, events⟩ := handleRefundCompleted_events world.rentals found
  rw [revocation, he]
  exact ⟨next, events⟩

/-- An entry outlives a settled refund, unless it names the revoked rental or is for
the pair that was purchased. -/
theorem onRefundCompleted_survives (sound : world.shelf.Sound) {id : Nat} {payment : Payment}
    (found : world.ledger.findById id = some payment) :
    (world.onRefundCompleted id).shelf.Sound ∧
      (∀ item ∈ (world.onRefundCompleted id).shelf.items.rows, item ∈ world.shelf.items.rows) ∧
      ∀ item ∈ world.shelf.items.rows,
        (∀ pair rental, payment.pairFor "rental" = some pair →
          world.rentals.findByUserAndBook pair.1 pair.2 = some rental →
          rental.status ≠ .expired → rental.status ≠ .returned → item.rentalId ≠ some rental.id) →
        payment.pairFor "purchase" ≠ some item.pair →
        item ∈ (world.onRefundCompleted id).shelf.items.rows := by
  have hears := hearRentalEvents_hears sound (world.revocation id).2
  have heard : ∀ item ∈ world.shelf.items.rows,
      (∀ pair rental, payment.pairFor "rental" = some pair →
        world.rentals.findByUserAndBook pair.1 pair.2 = some rental →
        rental.status ≠ .expired → rental.status ≠ .returned → item.rentalId ≠ some rental.id) →
      item ∈ (world.afterRentals (world.revocation id)).shelf.items.rows := by
    intro item hm spared
    refine hears.survives item hm fun event he rentalId ending => ?_
    obtain ⟨pair, rental, sale, newest, running, kept, rfl⟩ := (revocation_events found).2 event he
    rw [← Option.some.inj ending]
    exact spared pair rental sale newest running kept
  have old : ∀ item ∈ (world.afterRentals (world.revocation id)).shelf.items.rows,
      item ∈ world.shelf.items.rows := by
    intro item hm
    rcases hears.origin item hm with old | ⟨rentalId, userId, bookId, listed, -⟩
    · exact old
    · obtain ⟨pair, rental, -, -, -, -, e⟩ := (revocation_events found).2 _ listed
      cases e
  unfold onRefundCompleted
  cases purchase : payment.pairFor "purchase" with
  | none =>
    simp only [afterRentals, handleRefundCompleted_other found purchase]
    exact ⟨hears.sound, old, fun item hm spared _ => heard item hm spared⟩
  | some pair =>
    obtain ⟨removed, he, keeps⟩ := handleRefundCompleted_keeps hears.sound found purchase
    simp only [afterRentals, he]
    refine ⟨keeps.sound hears.sound, fun item hm => old item ((keeps item).mp hm).1,
      fun item hm spared other => ?_⟩
    exact (keeps item).mpr ⟨heard item hm spared, fun same => other (congrArg some same.symm)⟩

/-- One entry for a pair and one for a rental, whatever is requested. -/
theorem Effect.sound (effect : Effect world request after) (sound : world.shelf.Sound) :
    after.shelf.Sound := by
  cases effect with
  | refused => exact sound
  | opened => exact sound
  | reported => exact sound
  | completed id ids ledger completes =>
    have before : ({ world with ledger } : World).shelf.Sound := sound
    exact (onPaymentCompleted_adds before id).1
  | unsettled => exact sound
  | refunded input outcome answer ledger requests =>
    have before : ({ world with ledger } : World).shelf.Sound := sound
    obtain ⟨payment, now, ⟨restates, -⟩⟩ := requestRefund_ok requests
    exact (onRefundCompleted_survives before restates.leaves).1
  | returned id userId result returns => exact (hearRentalEvents_hears sound result.2).sound
  | swept => exact (hearRentalEvents_hears sound _).sound

end World
end Entitlements
