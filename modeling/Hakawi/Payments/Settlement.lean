import Hakawi.Payments.Deliveries
import Hakawi.Payments.RefundRelease

/-!
# A payment from checkout to refund

What the other modules see of a payment: it is opened by a checkout, completed
once, and refunded. Each is stated as one change of the ledger, and the service's
own programs are shown to make exactly these changes when nothing throws.
-/

namespace Payments

open Common Store Effects

section Checkout
variable (platform : Platform) (ledger : Ledger)

def createPayment (userId : String) (amount : Rat) (currency : String) (metadata : Json) :
    Except Failure (Payment × Ledger) := do
  let code ← validateCurrency platform (some currency)
  let cents ← validateAmount amount
  let created := ledger.create
    { userId, amount := cents, currency := code, status := .pending, metadata := some metadata }
  return (created.1, created.2.announce (.created created.1.id))

structure PaymobCheckoutResponse where
  paymentId : Nat
  orderId : String
  deriving DecidableEq

/-- A refused checkout leaves the payment behind as `failed`. -/
def registerPaymobCheckout (payment : Payment) (gateway : Except Failure String) :
    Except Failure PaymobCheckoutResponse × Ledger :=
  match gateway with
  | .error error =>
    (.error (.serviceUnavailable
        ("The payment gateway is unavailable, so no checkout URL was created: " ++ error.message)),
      (ledger.modifyPayment payment.id { status := some .failed }).announce (.failed payment.id))
  | .ok orderId =>
    (.ok ⟨payment.id, orderId⟩,
      ledger.modifyPayment payment.id
        { paymobOrderId := some orderId, status := some .processing })

def paymobInitializePayment (userId : String) (amount : Rat) (currency : String) (metadata : Json)
    (gateway : Except Failure String) : Except Failure PaymobCheckoutResponse × Ledger :=
  match createPayment platform ledger userId amount currency metadata with
  | .error error => (.error error, ledger)
  | .ok (payment, created) =>
    match validateCurrency platform (some payment.currency) with
    | .error error => (.error error, created)
    | .ok _ => registerPaymobCheckout created payment gateway

end Checkout

section Refusals
variable {platform : Platform} {ledger : Ledger} {userId currency message : String} {amount : Rat}
  {metadata : Json} {error : Failure}

theorem validateAmount_error (h : validateAmount amount = .error error) :
    ∃ message, error = .badRequest message := by
  unfold validateAmount at h
  split at h
  · cases h
  · exact ⟨_, (Except.error.inj h).symm⟩

theorem validateCurrency_error {currency : Option String}
    (h : validateCurrency platform currency = .error error) :
    ∃ message, error = .badRequest message := by
  unfold validateCurrency at h
  split at h
  · exact ⟨_, (Except.error.inj h).symm⟩
  · split at h
    · exact ⟨_, (Except.error.inj h).symm⟩
    · split at h
      · cases h
      · exact ⟨_, (Except.error.inj h).symm⟩

theorem createPayment_error
    (h : createPayment platform ledger userId amount currency metadata = .error error) :
    ∃ message, error = .badRequest message := by
  unfold createPayment at h
  cases hc : validateCurrency platform (some currency) with
  | error e =>
    simp only [hc, bind, Except.bind, Except.error.injEq] at h
    exact h ▸ validateCurrency_error hc
  | ok code =>
    cases ha : validateAmount amount with
    | error e =>
      simp only [hc, ha, bind, Except.bind, Except.error.injEq] at h
      exact h ▸ validateAmount_error ha
    | ok cents => simp [hc, ha, bind, Except.bind, pure, Except.pure] at h

/-- Whatever keeps a checkout from opening, it is not a conflict. -/
theorem paymobInitializePayment_ne_conflict (platform : Platform) (ledger : Ledger)
    (userId : String) (amount : Rat) (currency : String) (metadata : Json)
    (gateway : Except Failure String) (message : String) :
    (paymobInitializePayment platform ledger userId amount currency metadata gateway).1 ≠
      .error (.conflict message) := by
  unfold paymobInitializePayment
  cases hc : createPayment platform ledger userId amount currency metadata with
  | error e =>
    obtain ⟨_, rfl⟩ := createPayment_error hc
    simp [Failure.badRequest, Failure.conflict]
  | ok created =>
    cases hv : validateCurrency platform (some created.1.currency) with
    | error e =>
      obtain ⟨_, rfl⟩ := validateCurrency_error hv
      simp [hv, Failure.badRequest, Failure.conflict]
    | ok code =>
      cases gateway <;>
        simp [hv, registerPaymobCheckout, Failure.serviceUnavailable, Failure.conflict]

end Refusals

/-- How the gateway answers a refund. -/
inductive RefundOutcome where
  | processed
  | pending
  | refused
  deriving DecidableEq, Repr

/-- The status of the refund's row, once the gateway has answered. -/
def RefundOutcome.recorded : RefundOutcome → RefundStatus
  | .processed => .processed
  | .pending => .pending
  | .refused => .failed

namespace Ledger

/-- Of the statuses a payment takes, two are announced. -/
def announceStatus (ledger : Ledger) (id : Nat) (status : PaymentStatus) : Ledger :=
  if status = .completed then ledger.announce (.completed id)
  else if status = .failed then ledger.announce (.failed id)
  else ledger

/-- A payment takes a status, under the ids the gateway gives it. -/
def changeStatus (ledger : Ledger) (id : Nat) (status : PaymentStatus) (ids : PaymentPatch) :
    Except Failure Ledger :=
  match ledger.findById id with
  | none => .error (.notFound "Payment not found")
  | some payment => do
    validateStatusTransition payment.status status
    let written ← ledger.update id { ids with status := some status }
    return written.2.announceStatus id status

def complete (ledger : Ledger) (id : Nat) (ids : PaymentPatch) : Except Failure Ledger :=
  ledger.changeStatus id .completed ids

/-- What becomes of an admitted refund and of its payment. -/
def concludeRefund (ledger : Ledger) (paymentId : Nat) (refund : Refund) (answer : RefundPatch) :
    RefundOutcome → Ledger
  | .processed =>
    (ledger.updateRefund refund.id { answer with status := some .processed }).2.announce
      (.refundCompleted paymentId refund.id)
  | .pending => (ledger.updateRefund refund.id { answer with status := some .pending }).2
  | .refused => ledger.undoRefund paymentId refund answer

/-- A refund request. The gateway is asked only about a payment that is completed. -/
def requestRefund (ledger : Ledger) (input : RefundInput) (outcome : RefundOutcome)
    (answer : RefundPatch) : Except Failure (RefundOutcome × Ledger) := do
  let _ ← validateAmount input.amountCents
  let (reservation, reserved) ← ledger.reserveRefundCapacity input
  let refund := reservation.refund
  if reservation.payment.status ≠ .completed then
    return (.refused, reserved.concludeRefund input.paymentId refund answer .refused)
  else
    let created := reserved.announce (.refundCreated input.paymentId refund.id)
    return (outcome, created.concludeRefund input.paymentId refund answer outcome)

/-- The payment is completed, and no refund of it has settled. -/
structure Paid (ledger : Ledger) (payment : Payment) : Prop where
  completed : payment.status = .completed
  unrefunded : ∀ refund ∈ ledger.refunds.rows, refund.paymentId = payment.id →
    refund.status ≠ .processed

instance (ledger : Ledger) (payment : Payment) : Decidable (ledger.Paid payment) :=
  decidable_of_iff (payment.status = .completed ∧
      ∀ refund ∈ ledger.refunds.rows, refund.paymentId = payment.id → refund.status ≠ .processed)
    ⟨fun h => ⟨h.1, h.2⟩, fun h => ⟨h.1, h.2⟩⟩

/-- Refusing this request leaves the payment's status as it is. -/
def Refusable (ledger : Ledger) (input : RefundInput) : Prop :=
  ∀ payment ∈ ledger.findById input.paymentId, payment.status = .completed ∨
    (payment.status ≠ .refunded ∧
      ledger.reservedTotal input.paymentId + input.amountCents ≠ payment.amount)

instance (ledger : Ledger) (input : RefundInput) : Decidable (ledger.Refusable input) :=
  inferInstanceAs (Decidable (∀ payment ∈ ledger.findById input.paymentId, _))

end Ledger

section Changes
variable {platform : Platform} {ledger after : Ledger}

/-- At most one payment is opened, of this reader for this purpose, and none is changed. -/
structure Opens (userId : String) (metadata : Json) (before after : Ledger) : Prop where
  refunds : after.refunds = before.refunds
  payments : ∀ id payment, after.findById id = some payment →
    before.findById id = some payment ∨
      (payment.status ≠ .completed ∧ payment.userId = userId ∧ payment.metadata = some metadata)
  kept : ∀ id payment, before.findById id = some payment → after.findById id = some payment

theorem Opens.refl (userId : String) (metadata : Json) (ledger : Ledger) :
    Opens userId metadata ledger ledger :=
  ⟨rfl, fun _ _ h => Or.inl h, fun _ _ h => h⟩

theorem findById_create (data : CreatePaymentInput) (id : Nat) :
    (ledger.create data).2.findById id =
      if id = ledger.payments.next then some (ledger.create data).1 else ledger.findById id :=
  Table.find?_insert _ _ _ _

theorem findById_create_modify (data : CreatePaymentInput) (patch : PaymentPatch) (id : Nat) :
    ((ledger.create data).2.modifyPayment ledger.payments.next patch).findById id =
      if id = ledger.payments.next then some (patch.apply (ledger.create data).1)
      else ledger.findById id := by
  rw [Ledger.findById_modifyPayment, findById_create]
  by_cases h : id = ledger.payments.next <;> simp [h]

/-- One row under the next id, not completed. -/
theorem opens_of_row {userId : String} {metadata : Json} {row : Payment}
    (uncompleted : row.status ≠ .completed) (reader : row.userId = userId)
    (purpose : row.metadata = some metadata)
    (found : ∀ id, after.findById id =
      if id = ledger.payments.next then some row else ledger.findById id)
    (refunds : after.refunds = ledger.refunds) : Opens userId metadata ledger after := by
  refine ⟨refunds, fun id payment h => ?_, fun id payment h => ?_⟩
  · rw [found] at h
    by_cases hid : id = ledger.payments.next
    · rw [if_pos hid] at h
      obtain rfl := Option.some.inj h
      exact Or.inr ⟨uncompleted, reader, purpose⟩
    · rw [if_neg hid] at h
      exact Or.inl h
  · rw [found, if_neg (Nat.ne_of_lt (Table.lt_next_of_find? h))]
    exact h

theorem paymobInitializePayment_opens (userId : String) (amount : Rat) (currency : String)
    (metadata : Json) (gateway : Except Failure String) :
    Opens userId metadata ledger
      (paymobInitializePayment platform ledger userId amount currency metadata gateway).2 := by
  unfold paymobInitializePayment createPayment
  cases hc : validateCurrency platform (some currency) with
  | error e => exact .refl _ _ _
  | ok code =>
    cases ha : validateAmount amount with
    | error e => exact .refl _ _ _
    | ok cents =>
      simp only [bind, Except.bind, pure, Except.pure]
      split
      · exact opens_of_row (by simp [Ledger.create]) rfl rfl (findById_create _) rfl
      · cases gateway with
        | error e =>
          exact opens_of_row (by simp [PaymentPatch.apply]) rfl rfl
            (findById_create_modify _ _) rfl
        | ok orderId =>
          exact opens_of_row (by simp [PaymentPatch.apply]) rfl rfl
            (findById_create_modify _ _) rfl

theorem Opens.paid {userId : String} {metadata : Json} {payment : Payment}
    (opens : Opens userId metadata ledger after) (recorded : payment ∈ after.payments.rows)
    (h : after.Paid payment) : payment ∈ ledger.payments.rows ∧ ledger.Paid payment := by
  have found : after.findById payment.id = some payment :=
    Table.find?_eq_some_iff.mpr ⟨recorded, rfl⟩
  rcases opens.payments payment.id payment found with before | ⟨uncompleted, -⟩
  · exact ⟨Table.mem_of_find? before, h.completed, opens.refunds ▸ h.unrefunded⟩
  · exact absurd h.completed uncompleted

section Status
variable {id : Nat} {status : PaymentStatus} {ids : PaymentPatch}

theorem announceStatus_payments (ledger : Ledger) (id : Nat) (status : PaymentStatus) :
    (ledger.announceStatus id status).payments = ledger.payments ∧
      (ledger.announceStatus id status).refunds = ledger.refunds := by
  unfold Ledger.announceStatus
  split
  · exact ⟨rfl, rfl⟩
  · split <;> exact ⟨rfl, rfl⟩

/-- What a status write that goes through finds and leaves behind. -/
theorem changeStatus_ok (h : ledger.changeStatus id status ids = .ok after) :
    ∃ payment, ledger.findById id = some payment ∧ status ∈ PAYMENT_TRANSITIONS payment.status ∧
      ¬ ledger.TransactionTaken id { ids with status := some status } ∧
      after = (ledger.modifyPayment id { ids with status := some status }).announceStatus id
        status := by
  unfold Ledger.changeStatus at h
  cases hf : ledger.findById id with
  | none =>
    rw [hf] at h
    cases h
  | some payment =>
    rw [hf] at h
    cases hv : validateStatusTransition payment.status status with
    | error e => simp [hv, bind, Except.bind] at h
    | ok u =>
      refine ⟨payment, rfl, validateStatusTransition_eq_ok.mp hv, ?_⟩
      by_cases taken : ledger.TransactionTaken id { ids with status := some status }
      · simp [hv, Ledger.update, taken, bind, Except.bind] at h
      · simp only [hv, Ledger.update, if_neg taken, bind, Except.bind, pure, Except.pure] at h
        exact ⟨taken, (Except.ok.inj h).symm⟩

theorem changeStatus_findById (h : ledger.changeStatus id status ids = .ok after) (j : Nat) :
    after.findById j = if j = id then (ledger.findById j).map
      ({ ids with status := some status : PaymentPatch }).apply else ledger.findById j := by
  obtain ⟨payment, -, -, -, rfl⟩ := changeStatus_ok h
  rw [Ledger.findById, (announceStatus_payments _ _ _).1]
  exact Ledger.findById_modifyPayment ledger id j _

theorem changeStatus_refunds (h : ledger.changeStatus id status ids = .ok after) :
    after.refunds = ledger.refunds := by
  obtain ⟨payment, -, -, -, rfl⟩ := changeStatus_ok h
  exact (announceStatus_payments _ _ _).2

/-- A payment is paid after a status write if it was before, or if it just completed. -/
theorem changeStatus_paid {payment : Payment} (h : ledger.changeStatus id status ids = .ok after)
    (recorded : payment ∈ after.payments.rows) (hp : after.Paid payment) :
    (payment ∈ ledger.payments.rows ∧ ledger.Paid payment) ∨
      (status = .completed ∧ payment.id = id) := by
  have found : after.findById payment.id = some payment :=
    Table.find?_eq_some_iff.mpr ⟨recorded, rfl⟩
  rw [changeStatus_findById h] at found
  by_cases hid : payment.id = id
  · rw [if_pos hid] at found
    obtain ⟨before, -, rfl⟩ := Option.map_eq_some_iff.mp found
    exact Or.inr ⟨hp.completed, hid⟩
  · rw [if_neg hid] at found
    exact Or.inl ⟨Table.mem_of_find? found, hp.completed, changeStatus_refunds h ▸ hp.unrefunded⟩

end Status

/-- The money was taken, and perhaps given back. -/
def Captured (status : PaymentStatus) : Prop := status = .completed ∨ status = .refunded

/-- The same purchase, and still captured if it was. -/
structure SameSale (payment now : Payment) : Prop where
  userId : now.userId = payment.userId
  metadata : now.metadata = payment.metadata
  captured : Captured payment.status → Captured now.status

theorem SameSale.refl (payment : Payment) : SameSale payment payment := ⟨rfl, rfl, id⟩

theorem SameSale.pairFor {payment now : Payment} (sale : SameSale payment now) (type : String) :
    now.pairFor type = payment.pairFor type := by
  have texts : ∀ key, now.metaString key = payment.metaString key := by
    intro key
    rw [Payment.metaString, Payment.metaString, sale.metadata]
  rw [Payment.pairFor, Payment.pairFor, Payment.metaBookId, Payment.metaBookId, texts, texts,
    sale.userId]

/-- What was bought stays on record, and nothing comes to it. -/
structure Continues (before after : Ledger) : Prop where
  kept : ∀ id payment, before.findById id = some payment →
    ∃ now, after.findById id = some now ∧ SameSale payment now
  from_ : ∀ id now, after.findById id = some now →
    ∃ payment, before.findById id = some payment ∧ SameSale payment now

theorem Continues.of_findById
    (h : ∀ id, after.findById id = ledger.findById id ∨
      ∃ payment now, ledger.findById id = some payment ∧ after.findById id = some now ∧
        SameSale payment now) : Continues ledger after := by
  refine ⟨fun id payment hp => ?_, fun id now hn => ?_⟩
  · rcases h id with same | ⟨found, now, hf, hn, sale⟩
    · exact ⟨payment, same.trans hp, .refl _⟩
    · obtain rfl := Option.some.inj (hp.symm.trans hf)
      exact ⟨now, hn, sale⟩
  · rcases h id with same | ⟨payment, found, hp, hf, sale⟩
    · exact ⟨now, same.symm.trans hn, .refl _⟩
    · obtain rfl := Option.some.inj (hn.symm.trans hf)
      exact ⟨payment, hp, sale⟩

/-- No transition leads out of the captured statuses. -/
theorem captured_transition {before status : PaymentStatus}
    (edge : status ∈ PAYMENT_TRANSITIONS before) (h : Captured before) : Captured status := by
  rcases h with rfl | rfl
  · exact Or.inr (List.mem_singleton.mp edge)
  · cases edge

theorem changeStatus_continues {id : Nat} {status : PaymentStatus} {ids : PaymentPatch}
    (h : ledger.changeStatus id status ids = .ok after) : Continues ledger after := by
  refine .of_findById fun j => ?_
  rw [changeStatus_findById h]
  by_cases hj : j = id
  · obtain ⟨payment, hp, edge, -⟩ := changeStatus_ok h
    rw [if_pos hj, hj, hp]
    exact Or.inr ⟨payment, _, rfl, rfl, rfl, rfl, captured_transition edge⟩
  · rw [if_neg hj]
    exact Or.inl rfl

section Refunds
variable {input : RefundInput} {outcome : RefundOutcome} {answer : RefundPatch}

/-- A change to the status of one payment alone. -/
structure Restates (paymentId : Nat) (payment now : Payment) (before after : Ledger) : Prop where
  found : before.findById paymentId = some payment
  leaves : after.findById paymentId = some now
  status : now = { payment with status := now.status }
  captured : Captured payment.status → Captured now.status
  others : ∀ id, id ≠ paymentId → after.findById id = before.findById id

namespace Restates
variable {paymentId : Nat} {payment now later : Payment} {before middle after : Ledger}

theorem trans (first : Restates paymentId payment now before middle)
    (second : Restates paymentId now later middle after) :
    Restates paymentId payment later before after := by
  refine ⟨first.found, second.leaves, ?_, fun h => second.captured (first.captured h),
    fun id h => (second.others id h).trans (first.others id h)⟩
  rw [second.status, first.status]

theorem of_same (found : before.findById paymentId = some payment)
    (payments : after.payments = before.payments) :
    Restates paymentId payment payment before after := by
  have same : ∀ id, after.findById id = before.findById id := by
    intro id
    simp only [Ledger.findById, payments]
  exact ⟨found, (same paymentId).trans found, rfl, id, fun id _ => same id⟩

end Restates

theorem setStatus_restates {paymentId : Nat} {payment : Payment} {status : PaymentStatus}
    (found : ledger.findById paymentId = some payment)
    (captured : Captured payment.status → Captured status) :
    Restates paymentId payment { payment with status } ledger (ledger.setStatus paymentId status) := by
  refine ⟨found, Ledger.findById_setStatus found status, rfl, captured, fun id h => ?_⟩
  rw [Ledger.setStatus, Ledger.findById_modifyPayment, if_neg h]

theorem admitRefund_restates {payment : Payment} {already : Int}
    (found : ledger.findById input.paymentId = some payment) :
    Restates input.paymentId payment
      { payment with status := if already + input.amountCents = payment.amount then .refunded
          else payment.status } ledger (ledger.admitRefund payment already input).2 := by
  refine ⟨found, Ledger.admitRefund_findById ledger payment already input found, rfl, fun h => ?_,
    fun id h => Ledger.admitRefund_findById_ne ledger payment already input h⟩
  simp only
  split
  · exact Or.inr rfl
  · exact h

/-- Deriving the status anew moves a payment only between the captured statuses. -/
theorem reconcile_restates {paymentId : Nat} {payment : Payment}
    (found : ledger.findById paymentId = some payment) :
    let after := (transact ledger (ledger.reconcileRefundCapacity paymentId)).2
    (∃ now, Restates paymentId payment now ledger after ∧
      (¬ Captured payment.status → now.status = payment.status)) ∧
      after.refunds = ledger.refunds := by
  have stay : Restates paymentId payment payment ledger ledger := .of_same found rfl
  cases hr : ledger.reconcileRefundCapacity paymentId with
  | error e => exact ⟨⟨payment, stay, fun _ => rfl⟩, rfl⟩
  | ok reconciled =>
    obtain ⟨locked, hl, -, corrected⟩ := Ledger.reconcileRefundCapacity_ok hr
    obtain rfl := Option.some.inj (found.symm.trans (Ledger.lockPayment_eq_ok.mp hl).1)
    simp only [transact, corrected]
    refine ⟨?_, Ledger.repairDerivedStatus_refunds ..⟩
    simp only [Ledger.repairDerivedStatus, Table.key_of_find? found]
    split
    · rename_i derived
      exact ⟨_, setStatus_restates found fun _ => Or.inr rfl,
        fun h => absurd (Or.inl derived.2) h⟩
    · split
      · rename_i derived
        exact ⟨_, setStatus_restates found fun _ => Or.inl rfl,
          fun h => absurd (Or.inr derived.2) h⟩
      · exact ⟨payment, stay, fun _ => rfl⟩

/-- The payment may change its status, and the refund takes the one recorded for it. -/
theorem concludeRefund_restates {paymentId : Nat} {payment : Payment} (refund : Refund)
    (answer : RefundPatch) (outcome : RefundOutcome)
    (found : ledger.findById paymentId = some payment) :
    let after := ledger.concludeRefund paymentId refund answer outcome
    (∃ now, Restates paymentId payment now ledger after ∧
      (¬ Captured payment.status → now.status = payment.status)) ∧
      after.refunds =
        (ledger.updateRefund refund.id { answer with status := some outcome.recorded }).2.refunds := by
  cases outcome with
  | processed => exact ⟨⟨payment, .of_same found rfl, fun _ => rfl⟩, rfl⟩
  | pending => exact ⟨⟨payment, .of_same found rfl, fun _ => rfl⟩, rfl⟩
  | refused =>
    let failed := (ledger.updateRefund refund.id { answer with status := some .failed }).2.announce
      (.refundFailed refund.paymentId refund.id)
    have stillFound : failed.findById paymentId = some payment := found
    obtain ⟨⟨now, restates, uncaptured⟩, refunds⟩ := reconcile_restates stillFound
    have fails : Restates paymentId payment payment ledger failed := .of_same found rfl
    exact ⟨⟨now, fails.trans restates, uncaptured⟩, refunds⟩

/-- What a refund request that is admitted finds and leaves behind. -/
structure Requested (input : RefundInput) (result : RefundOutcome) (payment now : Payment)
    (before after : Ledger) : Prop where
  restates : Restates input.paymentId payment now before after
  row : ∃ refund, refund.paymentId = input.paymentId ∧ refund.status = result.recorded ∧
    ∀ id, after.refunds.find? id =
      if id = before.refunds.next then some refund else before.refunds.find? id
  settled : result = .processed → payment.status = .completed
  refusable : before.Refusable input → now.status = .completed → payment.status = .completed

/-- The rows of the refunds once an inserted one has been patched. -/
theorem updateRefund_inserted (ledger : Ledger) (input : RefundInput) (patch : RefundPatch)
    {after : Ledger} (inserted : after.refunds = (ledger.insertRefund input).2.refunds) (id : Nat) :
    (after.updateRefund (ledger.insertRefund input).1.id patch).2.refunds.find? id =
      if id = ledger.refunds.next then some (patch.apply (ledger.insertRefund input).1)
      else ledger.refunds.find? id := by
  refine (Table.find?_modify _ _ _ patch.apply_id id).trans ?_
  rw [inserted, Ledger.find?_insertRefund]
  change (if id = ledger.refunds.next then _ else _) = _
  by_cases same : id = ledger.refunds.next
  · simp only [if_pos same, Option.map_some]
  · simp only [if_neg same]

theorem requestRefund_ok {result : RefundOutcome}
    (h : ledger.requestRefund input outcome answer = .ok (result, after)) :
    ∃ payment now, Requested input result payment now ledger after := by
  unfold Ledger.requestRefund at h
  cases ha : validateAmount input.amountCents with
  | error e => simp [ha, bind, Except.bind] at h
  | ok cents =>
    cases hr : ledger.reserveRefundCapacity input with
    | error e => simp [ha, hr, bind, Except.bind] at h
    | ok admitted =>
      obtain ⟨payment, hl, usable, room, rfl⟩ := Ledger.reserveRefundCapacity_ok hr
      obtain ⟨found, live⟩ := Ledger.lockPayment_eq_ok.mp hl
      have admits : Restates input.paymentId payment _ ledger
          (ledger.admitRefund payment (ledger.reservedTotal input.paymentId) input).2 :=
        admitRefund_restates found
      have inserted := Ledger.admitRefund_refunds ledger payment
        (ledger.reservedTotal input.paymentId) input
      simp only [ha, hr, bind, Except.bind] at h
      split at h
      · rename_i uncaptured
        obtain ⟨rfl, rfl⟩ := Prod.mk.inj (Except.ok.inj h)
        obtain ⟨⟨now, concluded, same⟩, refunds⟩ := concludeRefund_restates
          (ledger.insertRefund input).1 answer .refused admits.leaves
        refine ⟨payment, now, admits.trans concluded, ⟨_, rfl, rfl, fun id =>
          (congrArg (Table.find? · id) refunds).trans
            (updateRefund_inserted ledger input _ inserted id)⟩, nofun,
          fun refusable completed => ?_⟩
        rcases refusable payment found with captured | ⟨unrefunded, partly⟩
        · exact captured
        · rw [if_neg partly] at same
          have kept := same fun captured => captured.elim uncaptured unrefunded
          exact absurd (kept.symm.trans completed) uncaptured
      · rename_i captured
        obtain ⟨rfl, rfl⟩ := Prod.mk.inj (Except.ok.inj h)
        let created := (ledger.admitRefund payment (ledger.reservedTotal input.paymentId) input
          ).2.announce (.refundCreated input.paymentId (ledger.insertRefund input).1.id)
        have creates : Restates input.paymentId payment _ ledger created :=
          admits.trans (.of_same admits.leaves rfl)
        obtain ⟨⟨now, concluded, -⟩, refunds⟩ := concludeRefund_restates
          (ledger.insertRefund input).1 answer outcome creates.leaves
        refine ⟨payment, now, creates.trans concluded, ⟨_, rfl, rfl, fun id =>
          (congrArg (Table.find? · id) refunds).trans
            (updateRefund_inserted ledger input _ inserted id)⟩,
          fun _ => not_not.mp captured, fun _ _ => not_not.mp captured⟩

theorem requestRefund_continues {result : RefundOutcome}
    (h : ledger.requestRefund input outcome answer = .ok (result, after)) :
    Continues ledger after := by
  obtain ⟨payment, now, ⟨restates, -⟩⟩ := requestRefund_ok h
  refine .of_findById fun id => ?_
  by_cases same : id = input.paymentId
  · subst same
    refine Or.inr ⟨payment, now, restates.found, restates.leaves, ?_, ?_, restates.captured⟩
    · rw [restates.status]
    · rw [restates.status]
  · exact Or.inl (restates.others id same)

/-- No payment becomes paid by a refund request that settles, or can be refused in peace. -/
theorem requestRefund_paid {result : RefundOutcome} {payment : Payment}
    (h : ledger.requestRefund input outcome answer = .ok (result, after))
    (refusable : result ≠ .processed → payment.id = input.paymentId → ledger.Refusable input)
    (recorded : payment ∈ after.payments.rows) (hp : after.Paid payment) :
    (result = .processed → payment.id ≠ input.paymentId) ∧
      payment ∈ ledger.payments.rows ∧ ledger.Paid payment := by
  obtain ⟨before, now, ⟨restates, ⟨requested, named, status, refunds⟩, -, captured⟩⟩ :=
    requestRefund_ok h
  have found : after.findById payment.id = some payment :=
    Table.find?_eq_some_iff.mpr ⟨recorded, rfl⟩
  have unrefunded : ∀ refund ∈ ledger.refunds.rows, refund.paymentId = payment.id →
      refund.status ≠ .processed := by
    intro refund hr
    have other : refund.id ≠ ledger.refunds.next := Nat.ne_of_lt (ledger.refunds.below refund hr)
    have kept := (refunds refund.id).trans (if_neg other)
    exact hp.unrefunded refund
      (Table.mem_of_find? (kept.trans (Table.find?_eq_some_iff.mpr ⟨hr, rfl⟩)))
  have different : result = .processed → payment.id ≠ input.paymentId := by
    rintro rfl same
    have present := (refunds ledger.refunds.next).trans (if_pos rfl)
    exact hp.unrefunded requested (Table.mem_of_find? present) (named.trans same.symm) status
  refine ⟨different, ?_⟩
  by_cases same : payment.id = input.paymentId
  · obtain rfl : payment = now := Option.some.inj (found.symm.trans (same ▸ restates.leaves))
    have completed := captured (refusable (fun e => different e same) same) hp.completed
    obtain rfl : payment = before := by
      rw [restates.status, hp.completed, ← completed]
    exact ⟨Table.mem_of_find? restates.found, completed, unrefunded⟩
  · rw [restates.others _ same] at found
    exact ⟨Table.mem_of_find? found, hp.completed, unrefunded⟩

end Refunds

end Changes

section Service
variable {schema : TransactionsSchema} {platform : Platform} {config : PaymobConfig}
  {ledger : Ledger}

end Service
end Payments
