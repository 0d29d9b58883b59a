import Hakawi.Payments.Deliveries

/-!
# Reports of an undecided transaction

A report that the transaction is still pending is read as a failure, which is
terminal: the payment stays failed when the settlement is reported afterwards.
-/

namespace Payments

open Common Store Effects Ledger

namespace PaymobWebhookPayload
variable (payload : PaymobWebhookPayload)

/-- In the envelope by its two flags, in the flat callback by its status word. -/
def ReportsSettled : Prop :=
  (payload.data.bind (·.success) = some true ∧ payload.data.bind (·.pending) ≠ some true) ∨
    payload.status = some "success"

def ReportsPending : Prop :=
  ¬ payload.ReportsSettled ∧
    (payload.data.bind (·.pending) = some true ∨ payload.status = some "pending")

instance : Decidable payload.ReportsSettled := inferInstanceAs (Decidable (_ ∨ _))
instance : Decidable payload.ReportsPending := inferInstanceAs (Decidable (_ ∧ _))

theorem resolveWebhookStatus_eq :
    payload.resolveWebhookStatus = if payload.ReportsSettled then .completed else .failed := rfl

end PaymobWebhookPayload

/-- The delivery can be read, it carries these ids, and it says what `report` says. -/
def ReadsAs (transactionId orderId : String) (report : PaymobWebhookPayload → Prop) :
    Except Failure Delivery → Prop
  | .ok delivery =>
    delivery.transactionId = transactionId ∧ delivery.orderId = orderId ∧ report delivery.payload
  | .error _ => False

instance (transactionId orderId : String) (report : PaymobWebhookPayload → Prop)
    [DecidablePred report] : (read : Except Failure Delivery) →
      Decidable (ReadsAs transactionId orderId report read)
  | .ok _ => inferInstanceAs (Decidable (_ ∧ _ ∧ _))
  | .error _ => .isFalse id

/-- Every delivery is handled to its end, answered or not. -/
def deliverAll (schema : TransactionsSchema) (platform : Platform) (config : PaymobConfig)
    (ledger : Ledger) (posts : List Post) : Ledger :=
  posts.foldl (fun ledger post => (deliver schema platform config ledger post).2) ledger

/-- A payment that waits for its transaction, which no other payment carries. -/
structure Checkout (ledger : Ledger) (payment : Payment) (transactionId orderId : String) :
    Prop where
  registered : ledger.findByOrderId orderId = some payment
  unclaimed : ∀ other ∈ ledger.payments.rows,
    other.paymobTransactionId = some transactionId → other.id = payment.id
  outstanding : payment.status = .pending ∨ payment.status = .processing

section Patching
variable {ledger : Ledger} {payment : Payment} {transactionId orderId : String}

theorem Checkout.found (checkout : Checkout ledger payment transactionId orderId) :
    ledger.findById payment.id = some payment := (findByOrderId_spec checkout.registered).1

theorem Checkout.namedBy (checkout : Checkout ledger payment transactionId orderId)
    {delivery : Delivery} (ht : delivery.transactionId = transactionId)
    (ho : delivery.orderId = orderId) : ledger.namedBy delivery = some payment := by
  subst ht ho
  unfold Ledger.namedBy
  cases hf : ledger.findByTransactionId delivery.transactionId with
  | none => exact checkout.registered
  | some other =>
    obtain ⟨found, carries⟩ := findByTransactionId_spec hf
    have same : other.id = payment.id :=
      checkout.unclaimed other (List.mem_of_find?_eq_some hf) carries
    rw [same, checkout.found] at found
    exact found.symm

theorem Checkout.notTaken (checkout : Checkout ledger payment transactionId orderId)
    {delivery : Delivery} (ht : delivery.transactionId = transactionId) :
    ¬ ledger.TransactionTaken payment.id (delivery.patch payment) := by
  subst ht
  rintro ⟨other, hm, different, -, carries⟩
  exact different (checkout.unclaimed other hm carries)

/-- The patched payment is the one its transaction id finds from now on. -/
theorem findByTransactionId_patched {patch : PaymentPatch}
    (checkout : Checkout ledger payment transactionId orderId)
    (carries : patch.paymobTransactionId = some transactionId) :
    (ledger.modifyPayment payment.id patch).findByTransactionId transactionId =
      some (patch.apply payment) := by
  have now : (ledger.modifyPayment payment.id patch).findById payment.id =
      some (patch.apply payment) := by
    rw [findById_modifyPayment, if_pos rfl, checkout.found]
    rfl
  cases hf : (ledger.modifyPayment payment.id patch).findByTransactionId transactionId with
  | none =>
    have missing := List.find?_eq_none.mp hf (patch.apply payment) (Table.mem_of_find? now)
    simp [PaymentPatch.apply, carries] at missing
  | some other =>
    obtain ⟨found, hother⟩ := findByTransactionId_spec hf
    have same : other.id = payment.id := by
      obtain ⟨row, hrow, rfl⟩ := List.mem_map.mp (List.mem_of_find?_eq_some hf)
      by_cases hid : row.id = payment.id
      · simp [hid]
      · simp only [hid, if_false] at hother ⊢
        exact absurd (checkout.unclaimed row hrow hother) hid
    rw [same, now] at found
    exact found.symm

end Patching

section Runs
variable {schema : TransactionsSchema} {platform : Platform} {config : PaymobConfig}
  {ledger : Ledger} {payment : Payment} {transactionId orderId : String}

/-- A delivery that is accepted writes its patch, whatever the insert after it does. -/
theorem recordDelivery_patches {delivery : Delivery} {rawBody : String}
    (accepted : acceptDelivery payment delivery = .ok ())
    (free : ¬ ledger.TransactionTaken payment.id (delivery.patch payment)) :
    wpE (reliably schema) (recordDelivery payment delivery rawBody)
      (fun _ after => after.payments =
        (ledger.modifyPayment payment.id (delivery.patch payment)).payments) ledger := by
  unfold recordDelivery
  simp only [wpE_bind, wpE_liftM, wpE_pure, wpE_ite, invalidatePaymentCache, perform, wpE_mk_call,
    Program.wp_done, reliably, performOp, accepted, Ledger.update, if_neg free, transact]
  generalize ledger.modifyPayment payment.id (delivery.patch payment) = written
  generalize hc : written.createTransaction schema _ = created
  have kept : (transact written created).2.payments = written.payments :=
    hc ▸ createTransaction_payments _
  cases created with
  | error e => exact kept
  | ok row =>
    simp only
    split
    · exact kept
    · split <;> exact kept

theorem deliver_patches (checkout : Checkout ledger payment transactionId orderId)
    {post : Post} (reliable : ∀ n, (post.choices n).Reliable) {delivery : Delivery}
    (hd : readDelivery platform config post.rawBody post.signature = .ok delivery)
    (ht : delivery.transactionId = transactionId) (ho : delivery.orderId = orderId)
    (accepted : acceptDelivery payment delivery = .ok ()) :
    (deliver schema platform config ledger post).2.payments =
      (ledger.modifyPayment payment.id (delivery.patch payment)).payments := by
  have uncompleted : payment.status ≠ .completed := by
    rcases checkout.outstanding with h | h <;> simp [h]
  exact eval_reliable (handlePaymobWebhook_named hd (checkout.namedBy ht ho) uncompleted
    (recordDelivery_patches accepted (checkout.notTaken ht))) reliable

/-- The payment the transaction id finds has failed. -/
def FailedBy (ledger : Ledger) (transactionId : String) (paymentId : Nat) : Prop :=
  ∃ payment, ledger.findByTransactionId transactionId = some payment ∧ payment.id = paymentId ∧
    payment.status = .failed

theorem FailedBy.statusOf {paymentId : Nat} (h : FailedBy ledger transactionId paymentId) :
    ledger.statusOf paymentId = some .failed := by
  obtain ⟨payment, hf, rfl, hs⟩ := h
  rw [statusOf_eq, (findByTransactionId_spec hf).1]
  exact congrArg some hs

/-- No further delivery of the transaction is accepted. -/
theorem FailedBy.deliver {paymentId : Nat} {post : Post} {report : PaymobWebhookPayload → Prop}
    (h : FailedBy ledger transactionId paymentId)
    (reads : ReadsAs transactionId orderId report
      (readDelivery platform config post.rawBody post.signature)) :
    FailedBy (deliver schema platform config ledger post).2 transactionId paymentId := by
  have effect : DeliveryEffect platform config post ledger
      (Payments.deliver schema platform config ledger post).2 := deliver_effect post
  rcases effect with same | ⟨delivery, named, hd, hn, accepted, -⟩
  · unfold FailedBy findByTransactionId
    rw [same]
    exact h
  · rw [hd] at reads
    obtain ⟨payment, hf, -, hs⟩ := h
    obtain rfl : payment = named := by simpa [Ledger.namedBy, reads.1, hf] using hn
    have edge := (acceptDelivery_eq_ok.mp accepted).1
    simp [hs, PAYMENT_TRANSITIONS] at edge

theorem FailedBy.deliverAll {paymentId : Nat} {posts : List Post}
    {report : PaymobWebhookPayload → Prop} (h : FailedBy ledger transactionId paymentId)
    (reads : ∀ post ∈ posts, ReadsAs transactionId orderId report
      (readDelivery platform config post.rawBody post.signature)) :
    FailedBy (deliverAll schema platform config ledger posts) transactionId paymentId := by
  induction posts generalizing ledger with
  | nil => exact h
  | cons post rest ih =>
    exact ih (h.deliver (reads post List.mem_cons_self))
      fun later hl => reads later (List.mem_cons_of_mem _ hl)

theorem outstanding_edge (checkout : Checkout ledger payment transactionId orderId) :
    PaymentStatus.completed ∈ PAYMENT_TRANSITIONS payment.status ∧
      PaymentStatus.failed ∈ PAYMENT_TRANSITIONS payment.status := by
  rcases checkout.outstanding with h | h <;> simp [h, PAYMENT_TRANSITIONS]

/-- The first report of an undecided transaction fails the payment. -/
theorem deliver_pending (checkout : Checkout ledger payment transactionId orderId) {post : Post}
    (reliable : ∀ n, (post.choices n).Reliable)
    (reads : ReadsAs transactionId orderId PaymobWebhookPayload.ReportsPending
      (readDelivery platform config post.rawBody post.signature)) :
    FailedBy (deliver schema platform config ledger post).2 transactionId payment.id := by
  cases hd : readDelivery platform config post.rawBody post.signature with
  | error e =>
    rw [hd] at reads
    exact reads.elim
  | ok delivery =>
    rw [hd] at reads
    obtain ⟨ht, ho, unsettled, -⟩ := reads
    have failed : delivery.payload.resolveWebhookStatus = .failed := by
      rw [PaymobWebhookPayload.resolveWebhookStatus_eq, if_neg unsettled]
    have accepted : acceptDelivery payment delivery = .ok () :=
      acceptDelivery_eq_ok.mpr ⟨failed ▸ (outstanding_edge checkout).2, by simp [failed]⟩
    have patches : (deliver schema platform config ledger post).2.payments = _ :=
      deliver_patches checkout reliable hd ht ho accepted
    refine ⟨(delivery.patch payment).apply payment, ?_, rfl, failed⟩
    unfold findByTransactionId
    rw [patches]
    exact findByTransactionId_patched checkout (congrArg some ht)

/-- The report of the settlement, when it is the first one, completes the payment. -/
theorem deliver_settled (checkout : Checkout ledger payment transactionId orderId) {post : Post}
    (reliable : ∀ n, (post.choices n).Reliable)
    (reads : ReadsAs transactionId orderId (fun payload => payload.ReportsSettled ∧
      payload.resolveWebhookAmountCents = some payment.amount)
      (readDelivery platform config post.rawBody post.signature)) :
    (deliver schema platform config ledger post).2.statusOf payment.id = some .completed := by
  cases hd : readDelivery platform config post.rawBody post.signature with
  | error e =>
    rw [hd] at reads
    exact reads.elim
  | ok delivery =>
    rw [hd] at reads
    obtain ⟨ht, ho, settled, amount⟩ := reads
    have completed : delivery.payload.resolveWebhookStatus = .completed := by
      rw [PaymobWebhookPayload.resolveWebhookStatus_eq, if_pos settled]
    have accepted : acceptDelivery payment delivery = .ok () :=
      acceptDelivery_eq_ok.mpr ⟨completed ▸ (outstanding_edge checkout).1, fun _ => amount⟩
    have patches : (deliver schema platform config ledger post).2.payments = _ :=
      deliver_patches checkout reliable hd ht ho accepted
    rw [Ledger.statusOf, patches]
    change (ledger.modifyPayment payment.id (delivery.patch payment)).statusOf payment.id = _
    rw [statusOf_eq, findById_modifyPayment, if_pos rfl, checkout.found]
    exact congrArg some completed

/-- Reports of an undecided transaction and then of its settlement complete the payment
exactly when there is none of the first kind, and each of the first kind ends it. -/
theorem settlement_completes_iff (schema : TransactionsSchema) (platform : Platform)
    (config : PaymobConfig) (ledger : Ledger) (payment : Payment)
    (transactionId orderId : String) (checkout : Checkout ledger payment transactionId orderId)
    (undecided : List Post) (settlement : Post)
    (reliable : ∀ post ∈ undecided ++ [settlement], ∀ n, (post.choices n).Reliable)
    (undecidedReads : ∀ post ∈ undecided,
      ReadsAs transactionId orderId PaymobWebhookPayload.ReportsPending
        (readDelivery platform config post.rawBody post.signature))
    (settlementReads : ReadsAs transactionId orderId (fun payload => payload.ReportsSettled ∧
      payload.resolveWebhookAmountCents = some payment.amount)
      (readDelivery platform config settlement.rawBody settlement.signature)) :
    let after := deliverAll schema platform config ledger
    ((after (undecided ++ [settlement])).statusOf payment.id = some .completed ↔
      undecided = []) ∧
    ((∀ early post late, undecided = early ++ post :: late →
      ∀ status, (after (early ++ [post])).statusOf payment.id = some status →
        ¬ status.Terminal) ↔ undecided = []) := by
  intro after
  cases undecided with
  | nil =>
    have completes : (after [settlement]).statusOf payment.id = some .completed :=
      deliver_settled checkout (reliable settlement (by simp)) settlementReads
    refine ⟨⟨fun _ => rfl, fun _ => completes⟩, fun _ => rfl, fun _ early post late h => ?_⟩
    simp at h
  | cons first rest =>
    have failed : FailedBy (after [first]) transactionId payment.id :=
      deliver_pending checkout (reliable first List.mem_cons_self)
        (undecidedReads first List.mem_cons_self)
    constructor
    · refine ⟨fun completed => ?_, fun h => by cases h⟩
      have later : FailedBy (after (first :: rest)) transactionId payment.id :=
        failed.deliverAll fun post hp => undecidedReads post (List.mem_cons_of_mem _ hp)
      have stays : FailedBy (after (first :: rest ++ [settlement])) transactionId payment.id := by
        simp only [after, deliverAll, List.foldl_append]
        exact later.deliver settlementReads
      rw [stays.statusOf] at completed
      cases completed
    · refine ⟨fun unended => ?_, fun h => by cases h⟩
      exact absurd rfl (unended [] first rest rfl .failed failed.statusOf)

end Runs

/-- One undecided report before the settlement. -/
theorem settlement_completes_second :
    let after := deliverAll paymentTransactionsP gateway .default (Ledger.single .pending none)
    let undecided := [signedPost pendingBody]
    ((after (undecided ++ [signedPost settledBody])).statusOf 0 = some .completed ↔
      undecided = []) ∧
    ((∀ early post late, undecided = early ++ post :: late →
      ∀ status, (after (early ++ [post])).statusOf 0 = some status → ¬ status.Terminal) ↔
        undecided = []) :=
  settlement_completes_iff paymentTransactionsP gateway .default (Ledger.single .pending none)
    ((Ledger.single .pending none).payments.rows.head (by decide)) "7" "11"
    ⟨rfl, by decide, Or.inl rfl⟩ [signedPost pendingBody] (signedPost settledBody)
    (by simp [signedPost, Choice.Reliable, Choice.quiet]) (by decide) (by decide)

/-- The payment has failed by the time its settlement is reported, and stays failed. -/
theorem settlement_afterPending :
    let after := deliverAll paymentTransactionsP gateway .default (Ledger.single .pending none)
    (after [signedPost pendingBody]).statusOf 0 = some .failed ∧
      PaymentStatus.failed.Terminal ∧
      (after [signedPost pendingBody, signedPost settledBody]).statusOf 0 = some .failed ∧
      ReadsAs "7" "11" PaymobWebhookPayload.ReportsPending
        (readDelivery gateway .default pendingBody.text (some pendingBody.digest)) := by
  decide

end Payments
