import Hakawi.Entitlements.DoubleCharge

/-!
# Refunds in part

The announcement of a settled refund carries no amount. The ledger keeps a payment
`completed` while its refunds do not add up to it, and the listeners take the access
away at the first of them.
-/

namespace Payments

/-- What a refund that was processed gave back of one payment. -/
def Refund.returned (paymentId : Nat) (refund : Refund) : Int :=
  if refund.paymentId = paymentId ∧ refund.status = .processed then refund.amount else 0

/-- What the processed refunds of a payment add up to. -/
def Ledger.processedTotal (ledger : Ledger) (paymentId : Nat) : Int :=
  ledger.refunds.total (Refund.returned paymentId)

/-- No refund of the payment is pending or processed. -/
def Ledger.Unrefunded (ledger : Ledger) (paymentId : Nat) : Prop :=
  ∀ refund ∈ ledger.refunds.rows, refund.paymentId = paymentId → ¬ refund.HoldsCapacity

instance (ledger : Ledger) (paymentId : Nat) : Decidable (ledger.Unrefunded paymentId) :=
  inferInstanceAs (Decidable (∀ refund ∈ ledger.refunds.rows, _))

theorem Ledger.Unrefunded.totals {ledger : Ledger} {paymentId : Nat}
    (h : ledger.Unrefunded paymentId) :
    ledger.reservedTotal paymentId = 0 ∧ ledger.processedTotal paymentId = 0 := by
  constructor
  · refine List.sum_eq_zero fun amount listed => ?_
    obtain ⟨refund, recorded, rfl⟩ := List.mem_map.mp listed
    exact if_neg fun held => h refund recorded held.1 held.2
  · refine List.sum_eq_zero fun amount listed => ?_
    obtain ⟨refund, recorded, rfl⟩ := List.mem_map.mp listed
    refine if_neg fun settled => h refund recorded settled.1 ?_
    simp [Refund.HoldsCapacity, settled.2, REFUND_CAPACITY_STATUSES]

theorem validateAmount_pos {cents amount : Int} (h : validateAmount cents = .ok amount) :
    0 < cents := by
  unfold validateAmount at h
  cases hs : paymobAmountCentsSchema cents with
  | error issues => simp [hs] at h
  | ok value =>
    obtain ⟨same, positive, -⟩ := paymobAmountCentsSchema_eq_ok.mp hs
    have whole : cents = value := by exact_mod_cast same
    exact whole ▸ positive

section Settling
variable {ledger after : Ledger} {input : RefundInput}

/-- Whatever is counted over the refunds, the patched row of a request adds its share. -/
theorem total_updateRefund_inserted (weight : Refund → Int) (patch : RefundPatch)
    (inserted : after.refunds = (ledger.insertRefund input).2.refunds) :
    (after.updateRefund (ledger.insertRefund input).1.id patch).2.refunds.total weight =
      ledger.refunds.total weight + weight (patch.apply (ledger.insertRefund input).1) := by
  have row : after.refunds.find? (ledger.insertRefund input).1.id =
      some (ledger.insertRefund input).1 := by
    rw [inserted, Ledger.find?_insertRefund]
    exact if_pos rfl
  have moved := Store.Table.total_modify weight patch.apply_id row
  have added : after.refunds.total weight =
      ledger.refunds.total weight + weight (ledger.insertRefund input).1 := by
    rw [inserted]
    exact Store.Table.total_insert weight _ _ _
  refine moved.trans ?_
  rw [added]
  ring

/-- A refund that settles had room, counts as returned, and restates its payment. -/
theorem requestRefund_settles {outcome : RefundOutcome} {answer : RefundPatch}
    (h : ledger.requestRefund input outcome answer = .ok (.processed, after)) :
    ∃ payment, ledger.findById input.paymentId = some payment ∧ payment.status = .completed ∧
      0 < input.amountCents ∧
      ledger.reservedTotal input.paymentId + input.amountCents ≤ payment.amount ∧
      after.findById input.paymentId = some { payment with
        status := if ledger.reservedTotal input.paymentId + input.amountCents = payment.amount
          then .refunded else .completed } ∧
      after.reservedTotal input.paymentId =
        ledger.reservedTotal input.paymentId + input.amountCents ∧
      after.processedTotal input.paymentId =
        ledger.processedTotal input.paymentId + input.amountCents := by
  unfold Ledger.requestRefund at h
  cases ha : validateAmount input.amountCents with
  | error e => simp [ha, bind, Except.bind] at h
  | ok cents =>
    cases hr : ledger.reserveRefundCapacity input with
    | error e => simp [ha, hr, bind, Except.bind] at h
    | ok admitted =>
      obtain ⟨payment, hl, usable, room, rfl⟩ := Ledger.reserveRefundCapacity_ok hr
      obtain ⟨found, live⟩ := Ledger.lockPayment_eq_ok.mp hl
      simp only [ha, hr, bind, Except.bind] at h
      split at h
      · cases (Prod.mk.inj (Except.ok.inj h)).1
      · rename_i captured
        obtain ⟨rfl, rfl⟩ := Prod.mk.inj (Except.ok.inj h)
        have completed : payment.status = .completed := not_not.mp captured
        let created := (ledger.admitRefund payment (ledger.reservedTotal input.paymentId) input
          ).2.announce (.refundCreated input.paymentId (ledger.insertRefund input).1.id)
        have inserted : created.refunds = (ledger.insertRefund input).2.refunds :=
          Ledger.admitRefund_refunds ..
        let patch : RefundPatch := { answer with status := some .processed }
        have counted : ∀ weight : Refund → Int,
            (created.updateRefund (ledger.insertRefund input).1.id patch).2.refunds.total weight =
              ledger.refunds.total weight + weight (patch.apply (ledger.insertRefund input).1) :=
          fun weight => total_updateRefund_inserted weight patch inserted
        refine ⟨payment, found, completed, validateAmount_pos ha, room, ?_, ?_, ?_⟩
        · rw [← completed]
          exact Ledger.admitRefund_findById ledger payment _ input found
        · refine (counted (Refund.reserved input.paymentId)).trans (congrArg (_ + ·) ?_)
          exact if_pos ⟨rfl, List.mem_cons_of_mem _ List.mem_cons_self⟩
        · refine (counted (Refund.returned input.paymentId)).trans (congrArg (_ + ·) ?_)
          exact if_pos ⟨rfl, rfl⟩

end Settling

end Payments

namespace Entitlements

open Common Payments Rentals Library Effects

/-- A refund of part or all of a payment. -/
structure RefundCall where
  elapsed : Nat
  amountCents : Int
  reason : Option String
  answer : RefundPatch

def RefundCall.input (call : RefundCall) (payment : Payment) : RefundInput :=
  ⟨payment.id, call.amountCents, payment.currency, call.reason⟩

namespace World
variable (world : World) (payment : Payment) (pair : String × String)

/-- A refund is asked for after some time, and the gateway settles it at once. -/
def refund (platform : Platform) (payment : Payment) (world : World) (call : RefundCall) : World :=
  world.step platform (call.elapsed, .refund (call.input payment) .processed call.answer)

/-- The refund goes through. -/
def Refunds (call : RefundCall) : Prop :=
  (world.ledger.requestRefund (call.input payment) .processed call.answer).toOption.map Prod.fst =
    some .processed

instance (call : RefundCall) : Decidable (world.Refunds payment call) :=
  inferInstanceAs (Decidable (_ = _))

/-- What the payment paid for is there: the book is owned, or its newest rental is active
and on the shelf. -/
def Accessible : Prop :=
  if payment.pairFor "purchase" = some pair then world.Holds pair .owned
  else ∃ rental ∈ world.rentals.findByUserAndBook pair.1 pair.2, rental.status = .active ∧
    ∃ item ∈ world.shelf.items.rows, item.pair = pair ∧ item.rentalId = some rental.id

instance : Decidable (world.Accessible payment pair) :=
  inferInstanceAs (Decidable (if payment.pairFor "purchase" = some pair then _
    else ∃ rental ∈ world.rentals.findByUserAndBook pair.1 pair.2, rental.status = .active ∧
      ∃ item ∈ world.shelf.items.rows, item.pair = pair ∧ item.rentalId = some rental.id))

/-- The shelf has no entry of the pair, and a rental is no longer active. -/
def Withdrawn : Prop :=
  (∀ item ∈ world.shelf.items.rows, item.pair ≠ pair) ∧
    (payment.pairFor "rental" = some pair →
      (world.rentals.findByUserAndBook pair.1 pair.2).map Rental.status ≠ some .active)

instance : Decidable (world.Withdrawn payment pair) := inferInstanceAs (Decidable (_ ∧ _))

/-- The money and the access agree. -/
structure InStep : Prop where
  partly : world.ledger.processedTotal payment.id < payment.amount →
    world.ledger.statusOf payment.id = some .completed ∧ world.Accessible payment pair
  fully : world.ledger.processedTotal payment.id = payment.amount →
    world.ledger.statusOf payment.id = some .refunded ∧ world.Withdrawn payment pair

instance : Decidable (world.InStep payment pair) :=
  decidable_of_iff ((world.ledger.processedTotal payment.id < payment.amount →
      world.ledger.statusOf payment.id = some .completed ∧ world.Accessible payment pair) ∧
    (world.ledger.processedTotal payment.id = payment.amount →
      world.ledger.statusOf payment.id = some .refunded ∧ world.Withdrawn payment pair))
    ⟨fun h => ⟨h.1, h.2⟩, fun h => ⟨h.1, h.2⟩⟩

section Withdrawal
variable {world payment pair} {id : Nat}

theorem accessible_rental (sale : payment.pairFor "rental" = some pair) :
    world.Accessible payment pair ↔ ∃ rental ∈ world.rentals.findByUserAndBook pair.1 pair.2,
      rental.status = .active ∧
        ∃ item ∈ world.shelf.items.rows, item.pair = pair ∧ item.rentalId = some rental.id := by
  rw [Accessible, if_neg fun purchase => purchase_ne_rental purchase sale]

theorem Withdrawn.not_accessible (h : world.Withdrawn payment pair) :
    ¬ world.Accessible payment pair := by
  unfold Accessible
  split
  · rintro ⟨item, listed, named, -⟩
    exact h.1 item listed named
  · rintro ⟨rental, -, -, item, listed, named, -⟩
    exact h.1 item listed named

/-- The settled refund of a purchase takes the entry of its pair. -/
theorem onRefundCompleted_purchase (sound : world.shelf.Sound)
    (found : world.ledger.findById id = some payment)
    (sale : payment.pairFor "purchase" = some pair) :
    (world.onRefundCompleted id).Withdrawn payment pair := by
  have quiet : world.revocation id = (world.rentals, []) := by
    have type := (Payment.pairFor_eq_some.mp sale).1
    simp [revocation, Rentals.handleRefundCompleted, found, type, settledOr]
  obtain ⟨removed, he, keeps⟩ := handleRefundCompleted_keeps sound found sale
  refine ⟨fun item listed => ?_, fun rental => absurd rental (purchase_ne_rental sale)⟩
  have same : (world.onRefundCompleted id).shelf = removed := by
    simp only [onRefundCompleted, quiet, afterRentals, hearRentalEvents, List.foldl_nil, he,
      settledOr]
  exact ((keeps item).mp (same ▸ listed)).2

/-- The settled refund of a rental expires it, and its entry goes. -/
theorem onRefundCompleted_rental (sound : world.shelf.Sound)
    (found : world.ledger.findById id = some payment)
    (sale : payment.pairFor "rental" = some pair) (accessible : world.Accessible payment pair) :
    (world.onRefundCompleted id).Withdrawn payment pair := by
  obtain ⟨rental, newest, active, shelved, present, named, names⟩ :=
    (accessible_rental sale).mp accessible
  obtain ⟨type, book, reader⟩ := Payment.pairFor_eq_some.mp sale
  have revoked : world.revocation id =
      (world.rentals.update rental.id { status := some .expired }, [.expired rental.id]) := by
    have found_ : world.rentals.findByUserAndBook payment.userId pair.2 = some rental :=
      reader ▸ newest
    simp [revocation, Rentals.handleRefundCompleted, found, type, revokeRental, book, found_,
      findByUserAndBook_live newest, active, settledOr]
  have none_ : payment.pairFor "purchase" = none := by
    rw [Payment.pairFor, if_neg]
    rw [type]
    decide
  have silent : world.onRefundCompleted id = world.afterRentals (world.revocation id) := by
    unfold onRefundCompleted
    simp only [afterRentals, handleRefundCompleted_other found none_, settledOr]
  have endings : ∀ event ∈ [RentalEvent.expired rental.id], event.ending.isSome := by
    simp [RentalEvent.ending]
  have keeps := hearEndings_keeps sound endings
  rw [silent, revoked]
  refine ⟨fun item listed same => ?_, fun _ => ?_⟩
  · obtain ⟨old, spared⟩ := (keeps item).mp listed
    have same_ := sound.pairs item old shelved present (same.trans named.symm)
    exact spared _ List.mem_cons_self (same_ ▸ names)
  · have updated : (world.rentals.update rental.id { status := some .expired }).findByUserAndBook
        pair.1 pair.2 = some ({ status := some .expired : RentalPatch }.apply rental) := by
      rw [RentalsTables.findByUserAndBook_update, newest, Option.map_some, if_pos rfl]
    exact fun still =>
      absurd ((congrArg (Option.map Rental.status) updated).symm.trans still) (by rintro ⟨⟩)

theorem refund_settled (platform : Platform) {call : RefundCall}
    (goes : world.Refunds payment call) :
    ∃ ledger, world.ledger.requestRefund (call.input payment) .processed call.answer =
        .ok (.processed, ledger) ∧
      world.refund platform payment call =
        ({ world.later call.elapsed with ledger }).onRefundCompleted payment.id := by
  unfold Refunds at goes
  cases h : world.ledger.requestRefund (call.input payment) .processed call.answer with
  | error e => simp [h, Except.toOption] at goes
  | ok settled =>
    obtain ⟨result, ledger⟩ := settled
    obtain rfl : result = .processed := by simpa [h, Except.toOption] using goes
    have later : (world.later call.elapsed).ledger.requestRefund (call.input payment) .processed
        call.answer = .ok (.processed, ledger) := h
    refine ⟨ledger, rfl, ?_⟩
    simp only [refund, step, handle, refundPayment]
    rw [later]
    rfl

/-- The first refund takes the access, whatever its amount. -/
theorem refund_withdraws (platform : Platform) {call : RefundCall} (sound : world.shelf.Sound)
    (found : world.ledger.findById payment.id = some payment) (sells : Sells pair payment)
    (accessible : world.Accessible payment pair) (goes : world.Refunds payment call) :
    (world.refund platform payment call).Withdrawn payment pair := by
  obtain ⟨ledger, requests, after⟩ := refund_settled platform goes
  obtain ⟨before, foundBefore, -, -, -, foundNow, -⟩ := requestRefund_settles requests
  obtain rfl : payment = before := Option.some.inj (found.symm.trans foundBefore)
  rw [after]
  let settled : World := { world.later call.elapsed with ledger }
  have soundNow : settled.shelf.Sound := sound
  have foundNow : settled.ledger.findById payment.id = _ := foundNow
  rcases sells with purchase | rental
  · have withdrawn := onRefundCompleted_purchase soundNow foundNow purchase
    exact withdrawn
  · have withdrawn := onRefundCompleted_rental soundNow foundNow rental accessible
    exact withdrawn

end Withdrawal

end World

/-- From the completion of a payment on, the access goes exactly with the money if every
refund is of the whole amount. -/
theorem refunds_inStep_iff (platform : Platform) (books : List Book) (now : Int)
    (turns : List (Nat × Request)) (payment : Payment) (pair : String × String)
    (calls : List RefundCall) :
    let world := Trace.run (World.step platform) (World.opening books now) turns
    world.ledger.findById payment.id = some payment → Sells pair payment →
    world.ledger.Unrefunded payment.id → world.Accessible payment pair →
    Trace.Meets (World.refund platform payment) (fun world call => world.Refunds payment call) world
      calls →
    (Trace.Meets (World.refund platform payment)
        (fun world call => (world.refund platform payment call).InStep payment pair) world calls ↔
      ∀ call ∈ calls, call.amountCents = payment.amount) := by
  intro world found sells unrefunded accessible settled
  have kept : ∀ world turn, world.shelf.Sound → (World.step platform world turn).shelf.Sound :=
    fun world turn sound =>
      (World.handle_effect platform (world.later turn.1) turn.2).sound sound
  have start : (World.opening books now).shelf.Sound := .empty
  have sound : world.shelf.Sound := Trace.run_invariant_always kept start turns
  cases calls with
  | nil => exact iff_of_true trivial fun _ => by simp
  | cons call rest =>
    obtain ⟨goes, others⟩ := settled
    have withdrawn := World.refund_withdraws platform sound found sells accessible goes
    obtain ⟨ledger, requests, after⟩ := World.refund_settled platform goes
    obtain ⟨before, foundBefore, -, positive, room, foundNow, reserved, processed⟩ :=
      requestRefund_settles requests
    obtain rfl : payment = before := Option.some.inj (found.symm.trans foundBefore)
    obtain ⟨none_, nothing⟩ := unrefunded.totals
    have books_ : (world.refund platform payment call).ledger = ledger := by rw [after]; rfl
    simp only [RefundCall.input, none_, zero_add] at positive room foundNow reserved
    simp only [RefundCall.input, nothing, zero_add] at processed
    by_cases whole : call.amountCents = payment.amount
    · -- the capacity is used up, so no other refund goes through
      have last : rest = [] := by
        cases rest with
        | nil => rfl
        | cons next rest =>
          obtain ⟨again, -⟩ := others
          obtain ⟨ledger', requests', -⟩ := World.refund_settled platform again
          obtain ⟨now, foundAgain, -, positive', room', -⟩ := requestRefund_settles requests'
          rw [books_] at foundAgain room'
          obtain rfl := Option.some.inj (foundNow.symm.trans foundAgain)
          simp only [RefundCall.input, reserved] at positive' room'
          omega
      subst last
      refine iff_of_true ⟨⟨fun partly => ?_, fun _ => ⟨?_, withdrawn⟩⟩, trivial⟩ ?_
      · rw [books_, processed] at partly
        omega
      · rw [books_, Ledger.statusOf_eq, foundNow, if_pos whole]
        rfl
      · intro other listed
        rw [List.mem_singleton.mp listed]
        exact whole
    · refine iff_of_false (fun inStep => ?_) fun all => whole (all call List.mem_cons_self)
      refine withdrawn.not_accessible (inStep.1.partly ?_).2
      rw [books_, processed]
      omega

/-- A purchase of 5000 that is completed. -/
def novelBought : List (Nat × Request) := [(0, buyNovel), (0, .report 0 .completed {})]

def novelPayment : Payment :=
  ((Trace.run (World.step .plain) (World.opening [novel] 0) novelBought).ledger.findById 0).get
    (by decide)

theorem novelPayment_found :
    (Trace.run (World.step .plain) (World.opening [novel] 0) novelBought).ledger.findById
      novelPayment.id = some novelPayment :=
  Store.Table.find?_eq_some_iff.mpr ⟨Store.Table.mem_of_find? (Option.some_get _).symm, rfl⟩

theorem refunds_inStep_iff_whole :
    Trace.Meets (World.refund .plain novelPayment)
        (fun world call => (world.refund .plain novelPayment call).InStep novelPayment
          ("reader", "novel"))
        (Trace.run (World.step .plain) (World.opening [novel] 0) novelBought)
        [⟨0, 5000, none, {}⟩] ↔
      ∀ call ∈ [(⟨0, 5000, none, {}⟩ : RefundCall)], call.amountCents = novelPayment.amount :=
  refunds_inStep_iff .plain [novel] 0 novelBought novelPayment ("reader", "novel")
    [⟨0, 5000, none, {}⟩] novelPayment_found (by decide) (by decide)
    (by decide) (by decide)

/-- A fifth of the price is refunded: the payment is still completed, and the book is gone. -/
theorem refunds_partly_withdrawn :
    let world := Trace.run (World.step .plain) (World.opening [novel] 0) novelBought
    let call : RefundCall := ⟨0, 1000, none, {}⟩
    world.Accessible novelPayment ("reader", "novel") ∧ world.Refunds novelPayment call ∧
      (world.refund .plain novelPayment call).ledger.statusOf 0 = some .completed ∧
      (world.refund .plain novelPayment call).Withdrawn novelPayment ("reader", "novel") ∧
      ¬ (world.refund .plain novelPayment call).InStep novelPayment ("reader", "novel") := by
  decide

end Entitlements
