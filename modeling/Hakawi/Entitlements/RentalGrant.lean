import Hakawi.Effects.Trace
import Hakawi.Entitlements.World

/-!
# What a rental payment grants

A completed rental payment grants nothing when the newest rental of the reader
and the book still says `active`, whatever its end date. The access question is
answered by the end date, so a rental that lapsed without a sweep swallows the
payment.
-/

namespace Entitlements

open Common Payments Rentals Library Effects

/-- No rental was created after this instant. -/
def Dated (now : Int) (tables : RentalsTables) : Prop :=
  ∀ rental ∈ tables.rentals.rows, rental.createdAt ≤ now

namespace Dated
variable {tables : RentalsTables} {now : Int}

theorem later (h : Dated now tables) {now' : Int} (passes : now ≤ now') : Dated now' tables :=
  fun rental hr => Int.le_trans (h rental hr) passes

theorem update (h : Dated now tables) (id : Nat) (patch : RentalPatch) :
    Dated now (tables.update id patch) := by
  intro rental hr
  obtain ⟨row, hrow, rfl⟩ := List.mem_map.mp hr
  by_cases hid : row.id = id
  · simpa [hid, RentalPatch.apply] using h row hrow
  · simpa [hid] using h row hrow

theorem grantRental (h : Dated now tables) (payment : Payment) :
    Dated now (grantRental tables now payment).1 := by
  unfold Rentals.grantRental
  split
  · split
    · exact h
    · intro rental hr
      rcases List.mem_append.mp hr with hr | hr
      · exact h rental hr
      · exact (congrArg Rental.createdAt (List.mem_singleton.mp hr)).le
  · exact h

theorem applyExtension (h : Dated now tables) (payment : Payment) :
    Dated now (applyExtension tables payment).1 := by
  unfold Rentals.applyExtension
  split
  · split
    · exact h
    · split
      · exact h
      · exact update h _ _
  · exact h

theorem revokeRental (h : Dated now tables) (payment : Payment) :
    Dated now (revokeRental tables payment).1 := by
  unfold Rentals.revokeRental
  split
  · exact h
  · split
    · exact h
    · split
      · exact h
      · exact update h _ _

theorem paymentCompleted (h : Dated now tables) (ledger : Ledger) (id : Nat) :
    Dated now (settledOr (tables, [])
      (Rentals.handlePaymentCompleted ledger tables now id)).1 := by
  unfold Rentals.handlePaymentCompleted
  split
  · exact h
  · split
    · exact h.applyExtension _
    · split
      · exact h.grantRental _
      · exact h

theorem refundCompleted (h : Dated now tables) (ledger : Ledger) (id : Nat) :
    Dated now (settledOr (tables, []) (Rentals.handleRefundCompleted ledger tables id)).1 := by
  unfold Rentals.handleRefundCompleted
  split
  · exact h
  · split
    · exact h.revokeRental _
    · exact h

theorem returnRental (h : Dated now tables) {id : Nat} {userId : String}
    {result : RentalsTables × List RentalEvent}
    (returns : Rentals.returnRental tables now id userId = .ok result) : Dated now result.1 := by
  unfold Rentals.returnRental at returns
  cases ho : tables.ownRental id userId with
  | error e => simp [ho, bind, Except.bind] at returns
  | ok rental =>
    simp only [ho, bind, Except.bind] at returns
    split at returns
    · cases returns
    · obtain rfl := Except.ok.inj returns
      exact h.update _ _

theorem sweep (h : Dated now tables) (at_ : Int) : Dated now (checkAndExpireOverdue tables at_).1 := by
  simp only [checkAndExpireOverdue]
  generalize tables.findOverdue at_ = overdue
  induction overdue generalizing tables with
  | nil => exact h
  | cons rental rest ih => exact ih (h.update _ _)

end Dated

/-- Rental payments are for the durations on offer. -/
def Offered (ledger : Ledger) : Prop :=
  ∀ id payment, ledger.findById id = some payment → payment.metaString "type" = some "rental" →
    ∃ days ∈ RENTAL_DURATION_DAYS, payment.metaNumber "durationDays" = some (days : Rat)

theorem Offered.continues {before after : Ledger} (h : Offered before)
    (continues : Continues before after) : Offered after := by
  intro id now hn rental
  obtain ⟨payment, hp, sale⟩ := continues.from_ id now hn
  have offered := h id payment hp
  simp only [Payment.metaString, Payment.metaNumber, ← sale.metadata] at offered
  exact offered rental

theorem Offered.opens {before after : Ledger} {userId : String} {metadata : Json}
    (h : Offered before) (opens : Opens userId metadata before after) (offer : World.Offer metadata) :
    Offered after := by
  intro id payment hp rental
  rcases opens.payments id payment hp with found | ⟨-, -, purpose⟩
  · exact h id payment found rental
  · simp only [Payment.metaString, Payment.metaNumber, purpose, Option.bind_some] at rental ⊢
    exact offer rental

/-- What holds of every world that requests lead to. -/
structure Booked (world : World) : Prop where
  dated : Dated world.now world.rentals
  offered : Offered world.ledger

theorem Booked.later {world : World} (h : Booked world) (elapsed : Nat) :
    Booked (world.later elapsed) :=
  ⟨h.dated.later (by simp only [World.later]; omega), h.offered⟩

theorem Booked.effect {world after : World} {request : Request} (h : Booked world)
    (effect : World.Effect world request after) : Booked after := by
  cases effect with
  | refused => exact h
  | opened request userId metadata ledger opens offer => exact ⟨h.dated, h.offered.opens opens offer⟩
  | reported id status ids ledger changes =>
    exact ⟨h.dated, h.offered.continues (changeStatus_continues changes)⟩
  | completed id ids ledger completes =>
    exact ⟨h.dated.paymentCompleted ledger id,
      h.offered.continues (changeStatus_continues completes)⟩
  | unsettled input outcome result answer ledger requests =>
    exact ⟨h.dated, h.offered.continues (requestRefund_continues requests)⟩
  | refunded input outcome answer ledger requests =>
    exact ⟨h.dated.refundCompleted ledger input.paymentId,
      h.offered.continues (requestRefund_continues requests)⟩
  | returned id userId result returns => exact ⟨h.dated.returnRental returns, h.offered⟩
  | swept => exact ⟨h.dated.sweep world.now, h.offered⟩

theorem booked_run (platform : Platform) (books : List Book) (now : Int)
    (turns : List (Nat × Request)) :
    Booked (Trace.run (World.step platform) (World.opening books now) turns) := by
  have start : Booked (World.opening books now) := by
    refine ⟨?_, ?_⟩
    · intro rental hr
      cases hr
    · intro id payment hp
      cases hp
  exact Trace.run_invariant_always
    (fun world turn h => (h.later turn.1).effect (World.handle_effect platform _ _)) start turns

/-- The payment is for a rental of this book, for this long. -/
structure RentalOf (payment : Payment) (bookId : String) (days : Rat) : Prop where
  type : payment.metaString "type" = some "rental"
  book : payment.metaBookId = some bookId
  duration : payment.metaNumber "durationDays" = some days

theorem RentalOf.same {payment now : Payment} {bookId : String} {days : Rat}
    (h : RentalOf payment bookId days) (sale : SameSale payment now) : RentalOf now bookId days := by
  obtain ⟨type, book, duration⟩ := h
  refine ⟨?_, ?_, ?_⟩
  · rwa [Payment.metaString, sale.metadata]
  · rwa [Payment.metaBookId, Payment.metaString, sale.metadata]
  · rwa [Payment.metaNumber, sale.metadata]

/-- The reader may read the book from now on for as long as was paid. -/
def Granted (world : World) (userId bookId : String) (days : Rat) : Prop :=
  ∃ rental, world.rentals.findActiveRentalForBook world.now userId bookId = some rental ∧
    addDays world.now days ≤ rental.endDate

/-- A rental the table calls active, that ends before the paid time is over. -/
def HeldUp (world : World) (userId bookId : String) (days : Rat) : Prop :=
  ∃ rental, world.rentals.findByUserAndBook userId bookId = some rental ∧
    rental.status = .active ∧ rental.endDate < addDays world.now days

theorem now_lt_addDays {now : Int} {days : Rat} (positive : 1 ≤ days) : now < addDays now days := by
  have whole : (1 : Int) ≤ ⌊days⌋ := Int.le_floor.mpr (by exact_mod_cast positive)
  simp only [addDays, MS_PER_DAY]
  omega

theorem duration_pos {days : Int} (h : days ∈ RENTAL_DURATION_DAYS) : 1 ≤ days := by
  simp only [RENTAL_DURATION_DAYS, List.mem_cons, List.not_mem_nil, or_false] at h
  omega

section Completion
variable {world : World} {paymentId : Nat} {ids : PaymentPatch} {ledger : Ledger}
  {payment : Payment} {bookId : String} {days : Rat}

/-- What the rentals module makes of the payment it reads back. -/
theorem completePayment_rentals (bought : world.ledger.findById paymentId = some payment)
    (rental : RentalOf payment bookId days) (positive : 1 ≤ days)
    (completes : world.ledger.complete paymentId ids = .ok ledger) :
    (world.completePayment paymentId ids).rentals =
      if (world.rentals.findByUserAndBook payment.userId bookId).map Rental.status = some .active
      then world.rentals else (world.rentals.create world.now payment.userId bookId days).2 := by
  obtain ⟨now, found, sale⟩ := (changeStatus_continues completes).kept paymentId payment bought
  have rental := rental.same sale
  have usable : metaDays now "durationDays" = some days := by
    simp [metaDays, rental.duration, lt_of_lt_of_le one_pos positive]
  have grants : Rentals.handlePaymentCompleted ledger world.rentals world.now paymentId =
      .ok (grantRental world.rentals world.now now) := handlePaymentCompleted_rental found rental.type
  rw [World.completePayment_eq completes]
  simp only [World.onPaymentCompleted, World.afterRentals, World.completion, grants, settledOr,
    grantRental, rental.book, usable, sale.userId]
  split <;> rfl

theorem findActive_of_newest {tables : RentalsTables} {now : Int} {userId : String}
    {rental : Rental} (newest : tables.findByUserAndBook userId bookId = some rental)
    (live : rental.deletedAt = none) (active : rental.status = .active)
    (running : now < rental.endDate) :
    tables.findActiveRentalForBook now userId bookId = some rental := by
  simp [RentalsTables.findActiveRentalForBook, newest, live, active, running]

theorem findActive_spec {tables : RentalsTables} {now : Int} {userId : String} {rental : Rental}
    (h : tables.findActiveRentalForBook now userId bookId = some rental) :
    tables.findByUserAndBook userId bookId = some rental := by
  unfold RentalsTables.findActiveRentalForBook at h
  cases hn : tables.findByUserAndBook userId bookId with
  | none => simp [hn] at h
  | some newest =>
    simp only [hn] at h
    split at h
    · cases h
    · split at h
      · cases h
      · split at h
        · cases h
        · exact h

theorem findByUserAndBook_live {tables : RentalsTables} {userId : String} {rental : Rental}
    (h : tables.findByUserAndBook userId bookId = some rental) : rental.deletedAt = none := by
  have row := List.of_mem_filter (newest_mem h)
  simp only [Bool.decide_and, Bool.and_eq_true, decide_eq_true_eq] at row
  exact row.2.2

/-- The row a grant creates is the one every lookup of the pair returns. -/
theorem findByUserAndBook_create {tables : RentalsTables} {now : Int} {userId : String}
    (dated : ∀ row ∈ tables.rentals.rows, row.createdAt < now) :
    (tables.create now userId bookId days).2.findByUserAndBook userId bookId =
      some (tables.create now userId bookId days).1 := by
  have rows : (tables.create now userId bookId days).2.ofPair userId bookId =
      tables.ofPair userId bookId ++ [(tables.create now userId bookId days).1] := by
    simp [RentalsTables.ofPair, RentalsTables.create]
  rw [RentalsTables.findByUserAndBook, rows]
  exact newest_append fun row hr => dated row (List.mem_of_mem_filter hr)

theorem granted_iff_not_heldUp (bought : world.ledger.findById paymentId = some payment)
    (rental : RentalOf payment bookId days) (positive : 1 ≤ days)
    (dated : ∀ row ∈ world.rentals.rentals.rows, row.createdAt < world.now)
    (completes : world.ledger.complete paymentId ids = .ok ledger) :
    Granted (world.completePayment paymentId ids) payment.userId bookId days ↔
      ¬ HeldUp world payment.userId bookId days := by
  have clock : (world.completePayment paymentId ids).now = world.now := by
    rw [World.completePayment_eq completes]
    rfl
  have ahead : world.now < addDays world.now days := now_lt_addDays positive
  have tables := completePayment_rentals bought rental positive completes
  simp only [Granted, clock, tables]
  by_cases held : (world.rentals.findByUserAndBook payment.userId bookId).map Rental.status =
      some .active
  · obtain ⟨newest, hn, active⟩ := Option.map_eq_some_iff.mp held
    rw [if_pos held]
    constructor
    · rintro ⟨found, hf, runs⟩ ⟨other, ho, -, short⟩
      obtain rfl := Option.some.inj ((findActive_spec hf).symm.trans ho)
      omega
    · intro free
      have runs : addDays world.now days ≤ newest.endDate := by
        by_contra short
        exact free ⟨newest, hn, active, by omega⟩
      exact ⟨newest, findActive_of_newest hn (findByUserAndBook_live hn) active (by omega), runs⟩
  · rw [if_neg held]
    refine iff_of_true ⟨_, findActive_of_newest (findByUserAndBook_create dated) rfl rfl ahead, ?_⟩
      ?_
    · exact le_refl (addDays world.now days)
    · rintro ⟨newest, hn, active, -⟩
      exact held (by rw [hn, Option.map_some, active])

end Completion

theorem Booked.later_dated {world : World} (h : Booked world) (elapsed : Nat) :
    ∀ row ∈ (world.later elapsed).rentals.rentals.rows,
      row.createdAt < (world.later elapsed).now := by
  intro row hr
  have created := h.dated row hr
  simp only [World.later]
  omega

/-- A rental payment that completes grants the rental, unless an older row holds it up. -/
theorem completed_rental_granted_iff (platform : Platform) (books : List Book) (now : Int)
    (turns : List (Nat × Request)) (elapsed paymentId : Nat) (ids : PaymentPatch)
    (payment : Payment) (bookId : String) (days : Rat) :
    let world := (Trace.run (World.step platform) (World.opening books now) turns).later elapsed
    world.ledger.findById paymentId = some payment → RentalOf payment bookId days →
    (world.ledger.complete paymentId ids).isOk = true →
    (Granted (world.completePayment paymentId ids) payment.userId bookId days ↔
      ¬ HeldUp world payment.userId bookId days) := by
  intro world bought rental completes
  have booked := booked_run platform books now turns
  obtain ⟨offered, listed, duration⟩ :=
    (booked.later elapsed).offered paymentId payment bought rental.type
  obtain rfl : days = offered := Option.some.inj (rental.duration.symm.trans duration)
  have positive : (1 : Rat) ≤ offered := by exact_mod_cast duration_pos listed
  cases hc : world.ledger.complete paymentId ids with
  | error e => simp [hc, Except.isOk, Except.toBool] at completes
  | ok ledger => exact granted_iff_not_heldUp bought rental positive (booked.later_dated elapsed) hc

/-- Two days after two checkouts of a day each, of which the first completed. -/
def lapsed : World :=
  (Trace.run (World.step .plain) (World.opening [novel] 0)
    [(0, rentNovel 1), (0, rentNovel 1), (0, .report 0 .completed {})]).later 172800000

/-- The payment of the second checkout. -/
def secondRental : Payment := (lapsed.ledger.findById 1).get (by decide)

theorem secondRental_rentalOf : RentalOf secondRental "novel" 1 :=
  ⟨by decide, by decide, by decide⟩

theorem completed_rental_granted_iff_lapsed :
    Granted (lapsed.completePayment 1 {}) secondRental.userId "novel" 1 ↔
      ¬ HeldUp lapsed secondRental.userId "novel" 1 :=
  completed_rental_granted_iff .plain [novel] 0
    [(0, rentNovel 1), (0, rentNovel 1), (0, .report 0 .completed {})] 172800000 1 {} secondRental "novel" 1
    (Option.some_get _).symm secondRental_rentalOf (by decide)

/-- The second payment completes, and the reader has no rental to read by. -/
theorem completed_rental_swallowed :
    lapsed.ledger.findById 1 = some secondRental ∧ RentalOf secondRental "novel" 1 ∧
      (lapsed.ledger.complete 1 {}).isOk = true ∧
      ¬ Granted (lapsed.completePayment 1 {}) secondRental.userId "novel" 1 := by
  refine ⟨(Option.some_get _).symm, secondRental_rentalOf, by decide, ?_⟩
  have none_active : ((lapsed.completePayment 1 {}).rentals.findActiveRentalForBook
      (lapsed.completePayment 1 {}).now secondRental.userId "novel").isNone = true := by
    decide
  rintro ⟨rental, found, -⟩
  rw [found] at none_active
  cases none_active

end Entitlements
