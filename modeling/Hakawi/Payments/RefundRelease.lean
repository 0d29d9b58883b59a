import Hakawi.Payments.RefundProtocol

/-!
# A refund request that fails

One refund request that runs alone, with a repository that does not fail. The
release recomputes the payment's status from the refund sum, and a payment that
no longer is fully refunded comes out `completed`: what it went in as matters
only for the requests that were admitted before their status was looked at.
-/

namespace Payments

open Common Store Effects Ledger

variable {schema : TransactionsSchema} {platform : Platform} {config : PaymobConfig}

/-- A reservation of one payment that can still be undone. -/
structure Awaiting (paymentId : Nat) (refund : Refund) (status : PaymentStatus)
    (ledger : Ledger) : Prop where
  payment : ∃ payment, ledger.findById paymentId = some payment ∧ payment.deletedAt = none ∧
    payment.status = status ∧ ledger.reservedTotal paymentId ≤ payment.amount
  row : ∃ row, ledger.refunds.find? refund.id = some row ∧ row.paymentId = paymentId ∧
    row.status = .pending ∧ row.amount = refund.amount
  positive : 0 < refund.amount
  usable : UsableTotal (ledger.reservedTotal paymentId - refund.amount)

/-- What a release makes of a payment that is not fully refunded. -/
def releasedStatus (status : PaymentStatus) : PaymentStatus :=
  if status = .refunded then .completed else status

theorem reconcile_statusOf {ledger : Ledger} {paymentId : Nat} {payment : Payment}
    (found : ledger.findById paymentId = some payment) (live : payment.deletedAt = none)
    (usable : UsableTotal (ledger.reservedTotal paymentId))
    (room : ledger.reservedTotal paymentId < payment.amount) :
    (transact ledger (ledger.reconcileRefundCapacity paymentId)).2.statusOf paymentId =
      some (releasedStatus payment.status) := by
  have hl : ledger.lockPayment paymentId = .ok payment := lockPayment_eq_ok.mpr ⟨found, live⟩
  have ht : ledger.sumReservedRefunds paymentId = .ok (ledger.reservedTotal paymentId) := by
    simp [sumReservedRefunds, usable]
  have full : decide (ledger.reservedTotal paymentId ≥ payment.amount) = false := by
    simpa using room
  have hid : payment.id = paymentId := Table.key_of_find? found
  simp only [reconcileRefundCapacity, hl, ht, bind, Except.bind, pure, Except.pure, transact,
    full, repairDerivedStatus, hid, releasedStatus]
  by_cases hs : payment.status = .refunded
  · simp [hs, statusOf_setStatus found]
  · simp [hs, statusOf_eq, found]

/-- The refund fails, and the payment's status is derived anew. -/
def Ledger.undoRefund (ledger : Ledger) (paymentId : Nat) (refund : Refund) (answer : RefundPatch) :
    Ledger :=
  let failed := (ledger.updateRefund refund.id { answer with status := some .failed }).2.announce
    (.refundFailed refund.paymentId refund.id)
  (transact failed (failed.reconcileRefundCapacity paymentId)).2

theorem undoRefund_statusOf {ledger : Ledger} {paymentId : Nat} {refund : Refund}
    {status : PaymentStatus} (awaiting : Awaiting paymentId refund status ledger)
    (answer : RefundPatch) :
    (ledger.undoRefund paymentId refund answer).statusOf paymentId = some (releasedStatus status) := by
  obtain ⟨⟨payment, found, live, rfl, bounded⟩, ⟨row, hr, hp, hs, ha⟩, positive, usable⟩ := awaiting
  let patch : RefundPatch := { answer with status := some .failed }
  let failed := (ledger.updateRefund refund.id patch).2.announce
    (.refundFailed refund.paymentId refund.id)
  have total : failed.reservedTotal paymentId = ledger.reservedTotal paymentId - refund.amount := by
    refine (reservedTotal_updateRefund hr patch paymentId).trans ?_
    simp [Refund.reserved, Refund.HoldsCapacity, RefundPatch.apply, REFUND_CAPACITY_STATUSES,
      hp, hs, ha, patch]
  have room : failed.reservedTotal paymentId < payment.amount := by omega
  have stillFound : failed.findById paymentId = some payment := found
  exact reconcile_statusOf stillFound live (total ▸ usable) room

/-- Undoing a reservation, and the error it ends in. -/
theorem refuseRefund_releases {α : Type} {ledger : Ledger} {paymentId : Nat} {refund : Refund}
    {status : PaymentStatus} (awaiting : Awaiting paymentId refund status ledger)
    (detail : List (String × Json)) (error : Failure) :
    wpE (reliably schema) (refuseRefund refund paymentId detail error : Handler α)
      (fun r after => r = .error error ∧
        after.statusOf paymentId = some (releasedStatus status)) ledger := by
  have released := undoRefund_statusOf awaiting { metadata := some (some (.obj detail)) }
  simp only [refuseRefund, markRefundFailed, releaseRefundCapacity, invalidatePaymentCache, wpE_bind,
    wpE_tryCatch, wpE_pure, wpE_throw, perform, wpE_mk_call, Program.wp_done,
    reliably, performOp, true_and]
  split <;> exact released

section Awaiting
variable {ledger : Ledger} {paymentId : Nat} {refund : Refund} {status : PaymentStatus}

theorem Awaiting.congr {after : Ledger} (h : Awaiting paymentId refund status ledger)
    (payments : after.payments = ledger.payments) (refunds : after.refunds = ledger.refunds) :
    Awaiting paymentId refund status after := by
  have found : after.findById paymentId = ledger.findById paymentId := by
    simp only [findById, payments]
  have total := reservedTotal_congr refunds paymentId
  refine ⟨?_, ?_, h.positive, ?_⟩
  · rw [found, total]
    exact h.payment
  · rw [refunds]
    exact h.row
  · rw [total]
    exact h.usable

/-- The error of a failed request, and the status it leaves. -/
def LeavesReleased {α : Type} (paymentId : Nat) (status : PaymentStatus) (r : Except Failure α)
    (after : Ledger) : Prop :=
  ∀ e, r = .error e → after.statusOf paymentId = some (releasedStatus status)

theorem refuse_leavesReleased {α : Type} (h : Awaiting paymentId refund status ledger)
    (detail : List (String × Json)) (error : Failure) :
    wpE (reliably schema) (refuseRefund refund paymentId detail error : Handler α)
      (fun r after => r = .error error ∧ LeavesReleased paymentId status r after) ledger :=
  wpE_mono reliably_monotone (fun _ _ hr => ⟨hr.1, fun _ _ => hr.2⟩)
    (refuseRefund_releases h detail error)

/-- Whatever the gateway is asked and answers, what its refunds do not touch is kept. -/
theorem refundTransaction_keeps {keeps : Ledger → Prop}
    (stable : ∀ before transactionId cents outcome, keeps before →
      keeps (before.execute transactionId cents outcome)) (h : keeps ledger)
    (transactionId : String) (cents : Int) :
    wpE (reliably schema) (refundTransaction platform config transactionId cents)
      (fun _ after => keeps after) ledger := by
  have attempts : wpE (reliably schema)
      (withRetries (call (.refundAttempt transactionId cents)) config.retryMaxAttempts)
      (fun _ after => keeps after) ledger := by
    refine wpE_withRetries reliably_monotone (fun before hb => ?_) _ _ h
    intro outcome
    have kept := stable before transactionId cents outcome hb
    exact ⟨kept, fun _ _ => kept⟩
  unfold refundTransaction
  simp only [wpE_bind, wpE_ite, wpE_throw]
  split
  · exact h
  · intro token
    cases token with
    | error e => exact h
    | ok token =>
      simp only [Program.wp_done, wpE_tryCatch, wpE_throw, wpE_pure]
      refine wpE_mono reliably_monotone (fun r after kept => ?_) attempts
      cases r <;> exact kept

theorem refundTransaction_awaits (h : Awaiting paymentId refund status ledger)
    (transactionId : String) (cents : Int) :
    wpE (reliably schema) (refundTransaction platform config transactionId cents)
      (fun _ after => Awaiting paymentId refund status after) ledger :=
  refundTransaction_keeps (fun before transactionId cents outcome hb =>
    hb.congr (before.execute_payments transactionId cents outcome)
      (before.execute_refunds transactionId cents outcome)) h transactionId cents

theorem settleRefund_leavesReleased {payment : Payment} (same : payment.id = paymentId)
    (h : Awaiting paymentId refund status ledger) (result : PaymobRefundResult) :
    wpE (reliably schema) (settleRefund payment refund result)
      (LeavesReleased paymentId status) ledger := by
  subst same
  unfold settleRefund
  rw [wpE_ite]
  split
  · exact wpE_mono reliably_monotone (fun _ _ hr => hr.2) (refuse_leavesReleased h _ _)
  · simp only [wpE_bind, wpE_ite, wpE_pure, perform, wpE_mk_call, Program.wp_done, reliably,
      performOp, LeavesReleased]
    split <;> exact fun e he => by cases he

theorem submitRefundToGateway_leavesReleased {payment : Payment} (same : payment.id = paymentId)
    (h : Awaiting paymentId refund status ledger) :
    wpE (reliably schema) (submitRefundToGateway platform config payment refund)
      (LeavesReleased paymentId status) ledger := by
  subst same
  unfold submitRefundToGateway
  cases payment.paymobTransactionId.filter (· ≠ "") with
  | none => exact wpE_mono reliably_monotone (fun _ _ hr => hr.2) (refuse_leavesReleased h _ _)
  | some transactionId =>
    simp only [wpE_bind, wpE_tryCatch]
    refine wpE_mono reliably_monotone (fun r after awaiting => ?_)
      (refundTransaction_awaits h transactionId refund.amount)
    cases r with
    | ok result => exact settleRefund_leavesReleased rfl awaiting result
    | error e =>
      refine wpE_mono reliably_monotone (fun r after hr => ?_) (refuse_leavesReleased awaiting _ _)
      rw [hr.1]
      exact fun _ _ => hr.2 _ hr.1

end Awaiting

/-- The payment and the amount with which a request reserves capacity. -/
def admission (platform : Platform) (ledger : Ledger) (paymentId : Nat) (amount : Rat) :
    Option (Payment × Int) :=
  match validateAmount amount, existingPayment (ledger.findById paymentId) with
  | .ok cents, .ok payment =>
    match validateCurrency platform (some payment.currency) with
    | .ok _ =>
      if UsableTotal (ledger.reservedTotal paymentId) ∧
          ledger.reservedTotal paymentId + cents ≤ payment.amount then some (payment, cents)
      else none
    | .error _ => none
  | _, _ => none

section Admission
variable {ledger : Ledger} {paymentId : Nat} {payment : Payment} {cents : Int}

/-- The status an admitted request finds, once its own reservation has flipped it. -/
def flippedStatus (ledger : Ledger) (paymentId : Nat) (payment : Payment) (cents : Int) : PaymentStatus :=
  if ledger.reservedTotal paymentId + cents = payment.amount then .refunded else payment.status

theorem admitRefund_awaiting (found : ledger.findById paymentId = some payment)
    (live : payment.deletedAt = none) (positive : 0 < cents)
    (usable : UsableTotal (ledger.reservedTotal paymentId))
    (room : ledger.reservedTotal paymentId + cents ≤ payment.amount) (currency : String)
    (reason : Option String) :
    let admitted := ledger.admitRefund payment (ledger.reservedTotal paymentId)
      ⟨paymentId, cents, currency, reason⟩
    Awaiting paymentId admitted.1.refund (flippedStatus ledger paymentId payment cents) admitted.2 := by
  intro admitted
  have total : admitted.2.reservedTotal paymentId = ledger.reservedTotal paymentId + cents := by
    rw [reservedTotal_congr (admitRefund_refunds ..)]
    exact reservedTotal_insertRefund ledger ⟨paymentId, cents, currency, reason⟩
  refine ⟨?_, ⟨admitted.1.refund, ?_, rfl, rfl, rfl⟩, positive, ?_⟩
  · exact ⟨_, admitRefund_findById ledger payment _ ⟨paymentId, cents, currency, reason⟩ found,
      live, rfl, total ▸ room⟩
  · rw [admitRefund_refunds, find?_insertRefund]
    exact if_pos rfl
  · rw [total]
    exact (Int.add_sub_cancel _ _).symm ▸ usable

/-- A request that is not admitted changes nothing. -/
theorem createRefund_refused {amount : Rat} {reason : Option String}
    (h : admission platform ledger paymentId amount = none) :
    wpE (reliably schema) (createRefund platform config paymentId amount reason)
      (fun r after => (∃ error, r = .error error) ∧ after = ledger) ledger := by
  unfold createRefund
  cases ha : validateAmount amount with
  | error e => exact ⟨⟨_, rfl⟩, rfl⟩
  | ok cents =>
    simp only [wpE_bind, wpE_liftM, wpE_tryCatch, wpE_throw, perform, wpE_mk_call,
      Program.wp_done, reliably, performOp]
    cases hp : existingPayment (ledger.findById paymentId) with
    | error e => exact ⟨⟨_, rfl⟩, trivial⟩
    | ok payment =>
      cases hc : validateCurrency platform (some payment.currency) with
      | error e =>
        simp only [hc]
        exact ⟨⟨_, rfl⟩, trivial⟩
      | ok currency =>
        simp only [hc]
        obtain ⟨found, live⟩ := existingPayment_eq_ok.mp hp
        cases hr : ledger.reserveRefundCapacity ⟨paymentId, cents, currency, reason⟩ with
        | error e => exact ⟨⟨_, rfl⟩, rfl⟩
        | ok admitted =>
          obtain ⟨locked, hl, usable, room, -⟩ := reserveRefundCapacity_ok hr
          obtain rfl := Option.some.inj (found.symm.trans (lockPayment_eq_ok.mp hl).1)
          simp [admission, ha, hp, hc, usable, room] at h

theorem admission_spec {amount : Rat}
    (h : admission platform ledger paymentId amount = some (payment, cents)) :
    validateAmount amount = .ok cents ∧ ledger.findById paymentId = some payment ∧
      payment.deletedAt = none ∧
      (∃ currency, validateCurrency platform (some payment.currency) = .ok currency) ∧
      UsableTotal (ledger.reservedTotal paymentId) ∧
      ledger.reservedTotal paymentId + cents ≤ payment.amount := by
  unfold admission at h
  cases ha : validateAmount amount with
  | error e => simp [ha] at h
  | ok asked =>
    cases hp : existingPayment (ledger.findById paymentId) with
    | error e => simp [ha, hp] at h
    | ok found =>
      cases hc : validateCurrency platform (some found.currency) with
      | error e => simp [ha, hp, hc] at h
      | ok currency =>
        simp only [ha, hp, hc] at h
        split at h
        · obtain ⟨rfl, rfl⟩ := Prod.mk.inj (Option.some.inj h)
          obtain ⟨usable, room⟩ := ‹_ ∧ _›
          obtain ⟨hf, live⟩ := existingPayment_eq_ok.mp hp
          exact ⟨rfl, hf, live, ⟨currency, hc⟩, usable, room⟩
        · cases h

/-- A request that is admitted goes on with its reservation. -/
theorem createRefund_admitted {amount : Rat} {reason : Option String}
    (h : admission platform ledger paymentId amount = some (payment, cents)) :
    ∃ currency, ∀ Q,
      wpE (reliably schema) (createRefund platform config paymentId amount reason) Q ledger =
        let admitted := ledger.admitRefund payment (ledger.reservedTotal paymentId)
          ⟨paymentId, cents, currency, reason⟩
        wpE (reliably schema) (pursueReservation platform config paymentId admitted.1) Q
          admitted.2 := by
  obtain ⟨ha, hf, live, ⟨currency, hc⟩, usable, room⟩ := admission_spec h
  have hp := existingPayment_eq_ok.mpr ⟨hf, live⟩
  have reserved : ledger.reserveRefundCapacity ⟨paymentId, cents, currency, reason⟩ = _ :=
    reserveRefundCapacity_of_room (lockPayment_eq_ok.mpr ⟨hf, live⟩) usable room
  refine ⟨currency, fun Q => ?_⟩
  simp only [createRefund, ha, wpE_bind, wpE_liftM, wpE_tryCatch, wpE_throw, perform,
    wpE_mk_call, Program.wp_done, reliably, performOp, hp, hc, reserved, transact]

theorem releasedStatus_flipped (ledger : Ledger) (paymentId : Nat) (payment : Payment)
    (cents : Int) :
    releasedStatus (flippedStatus ledger paymentId payment cents) = payment.status ↔
      (payment.status ≠ .completed → payment.status ≠ .refunded ∧
        ledger.reservedTotal paymentId + cents ≠ payment.amount) := by
  unfold flippedStatus releasedStatus
  by_cases hc : ledger.reservedTotal paymentId + cents = payment.amount <;>
    cases payment.status <;> simp [hc]

/-- How a request ends that got its reservation for a payment of status `before`: if it
fails, the status has been released, and unless the payment was captured it fails. -/
def EndsReleased (paymentId : Nat) (before flipped : PaymentStatus)
    (r : Except Failure (Option Refund)) (after : Ledger) : Prop :=
  LeavesReleased paymentId flipped r after ∧ (before ≠ .completed → ∃ error, r = .error error)

theorem pursueReservation_releases {reservation : RefundReservation} {flipped : PaymentStatus}
    (same : reservation.payment.id = paymentId)
    (awaiting : Awaiting paymentId reservation.refund flipped ledger) :
    wpE (reliably schema) (pursueReservation platform config paymentId reservation)
      (EndsReleased paymentId reservation.payment.status flipped) ledger := by
  unfold pursueReservation
  rw [wpE_ite]
  split
  · refine wpE_mono reliably_monotone (fun r after hr => ⟨hr.2, fun _ => ⟨_, hr.1⟩⟩)
      (refuse_leavesReleased awaiting _ _)
  · have captured : reservation.payment.status = .completed := by
      by_contra hne
      contradiction
    simp only [wpE_bind, invalidatePaymentCache, perform, wpE_mk_call, Program.wp_done, reliably,
      performOp]
    refine wpE_mono reliably_monotone (fun r after hr => ⟨hr, fun hne => absurd captured hne⟩)
      (submitRefundToGateway_leavesReleased same (awaiting.congr ?_ ?_))
    · rfl
    · rfl

theorem createRefund_releases {amount : Rat} {reason : Option String}
    (h : admission platform ledger paymentId amount = some (payment, cents)) :
    wpE (reliably schema) (createRefund platform config paymentId amount reason)
      (EndsReleased paymentId payment.status (flippedStatus ledger paymentId payment cents))
      ledger := by
  obtain ⟨currency, hQ⟩ := createRefund_admitted h
  obtain ⟨ha, found, live, -, usable, room⟩ := admission_spec h
  rw [hQ]
  exact pursueReservation_releases (Table.key_of_find? found)
    (admitRefund_awaiting found live (positive_of_validateAmount ha) usable room currency reason)

/-- A request that fails, run alone against a repository that does not fail, leaves the
payment's status as it was exactly when it is not admitted, or admitted for a captured
payment, or for one that is neither `refunded` nor brought to its amount. -/
theorem failedRefund_keepsStatus_iff (schema : TransactionsSchema) (platform : Platform)
    (config : PaymobConfig) (ledger : Ledger) (paymentId : Nat) (amount : Rat)
    (reason : Option String) (choices : Nat → Choice) (reliable : ∀ n, (choices n).Reliable) :
    let run := (createRefund platform config paymentId amount reason).run.eval (exec schema)
      choices ledger
    (∀ error, run.1 = .error error →
      run.2.statusOf paymentId = ledger.statusOf paymentId) ↔
    ∀ payment cents, admission platform ledger paymentId amount = some (payment, cents) →
      payment.status ≠ .completed →
      payment.status ≠ .refunded ∧ ledger.reservedTotal paymentId + cents ≠ payment.amount := by
  intro run
  cases h : admission platform ledger paymentId amount with
  | none =>
    have refused : (∃ error, run.1 = .error error) ∧ run.2 = ledger :=
      eval_reliable (createRefund_refused h) reliable
    simp [refused.2]
  | some admitted =>
    obtain ⟨payment, cents⟩ := admitted
    have ends : EndsReleased paymentId payment.status
        (flippedStatus ledger paymentId payment cents) run.1 run.2 :=
      eval_reliable (createRefund_releases h) reliable
    have found : ledger.statusOf paymentId = some payment.status := by
      rw [statusOf_eq, (admission_spec h).2.1]
      rfl
    rw [found]
    constructor
    · intro keeps locked cents' heq uncaptured
      obtain ⟨rfl, rfl⟩ := Prod.mk.inj (Option.some.inj heq)
      obtain ⟨error, he⟩ := ends.2 uncaptured
      have same := (ends.1 error he).symm.trans (keeps error he)
      exact (releasedStatus_flipped ..).mp (Option.some.inj same) uncaptured
    · intro condition error he
      rw [ends.1 error he, (releasedStatus_flipped ..).mpr (condition payment cents rfl)]

theorem failedRefund_keepsStatus_captured :
    let run := (createRefund .plain .default 0 100 none).run.eval (exec paymentTransactionsP)
      (fun _ => .quiet) (Ledger.single .completed (some "7"))
    (∀ error, run.1 = .error error →
      run.2.statusOf 0 = (Ledger.single .completed (some "7")).statusOf 0) ↔
    ∀ payment cents,
      admission .plain (Ledger.single .completed (some "7")) 0 100 = some (payment, cents) →
      payment.status ≠ .completed →
      payment.status ≠ .refunded ∧
        (Ledger.single .completed (some "7")).reservedTotal 0 + cents ≠ payment.amount :=
  failedRefund_keepsStatus_iff paymentTransactionsP .plain .default _ 0 100 none _ fun _ => rfl

/-- A payment that was never captured comes out of a refused refund `completed`. -/
theorem failedRefund_completes_pending :
    let run := (createRefund .plain .default 0 100 none).run.eval (exec paymentTransactionsP)
      (fun _ => .quiet) (Ledger.single .pending none)
    run.1.isOk = false ∧
      (Ledger.single .pending none).statusOf 0 = some .pending ∧
      run.2.statusOf 0 = some .completed := by
  decide

end Admission

end Payments
