import Hakawi.Payments.Service

/-!
# One webhook delivery

A delivery changes at most one payment, the one its ids name, and only after it
has been authenticated and its amount compared. Nothing here assumes that the
repository or the event bus works: any call may throw.
-/

namespace Payments

open Common Store Effects Ledger

/-- A delivery as it arrives, and what the environment does while it is handled. -/
structure Post where
  rawBody : String
  signature : Option String
  choices : Nat → Choice

def deliver (schema : TransactionsSchema) (platform : Platform) (config : PaymobConfig)
    (ledger : Ledger) (post : Post) : Except Failure String × Ledger :=
  (handlePaymobWebhook platform config post.rawBody post.signature).run.eval (exec schema)
    post.choices ledger

/-- The signature is the digest of the raw body under the configured secret, up to
the fingerprint the service compares. -/
def SignatureVerified (platform : Platform) (rawBody : String) (signature secret : Option String) :
    Prop :=
  ∃ key provided, secret = some key ∧ key ≠ "" ∧ signature = some provided ∧ provided ≠ "" ∧
    platform.sha256 (platform.hmacSha256 key rawBody) = platform.sha256 (bufferFromHex provided)

/-- The payment a delivery is about: by transaction id, otherwise by order id. -/
def Ledger.namedBy (ledger : Ledger) (delivery : Delivery) : Option Payment :=
  match ledger.findByTransactionId delivery.transactionId with
  | some payment => some payment
  | none => ledger.findByOrderId delivery.orderId

section Checks
variable {platform : Platform} {config : PaymobConfig} {rawBody : String}
  {signature : Option String}

theorem validateWebhookSignature_eq_ok {secret : Option String} :
    validateWebhookSignature platform rawBody signature secret = .ok () ↔
      SignatureVerified platform rawBody signature secret := by
  unfold validateWebhookSignature SignatureVerified
  constructor
  · intro h
    cases hs : secret.filter (· ≠ "") with
    | none =>
      rw [hs] at h
      cases h
    | some key =>
      cases hp : signature.filter (· ≠ "") with
      | none =>
        rw [hs, hp] at h
        cases h
      | some provided =>
        obtain ⟨hs', hkey⟩ := Option.filter_eq_some_iff.mp hs
        obtain ⟨hp', hprovided⟩ := Option.filter_eq_some_iff.mp hp
        refine ⟨key, provided, hs', by simpa using hkey, hp', by simpa using hprovided, ?_⟩
        by_contra different
        rw [hs, hp] at h
        simp only [if_neg different] at h
        cases h
  · rintro ⟨key, provided, rfl, hkey, rfl, hprovided, same⟩
    simp [Option.filter, hkey, hprovided, same]

/-- What a delivery that was read has passed, and where its parts come from. -/
theorem readDelivery_eq_ok {delivery : Delivery}
    (h : readDelivery platform config rawBody signature = .ok delivery) :
    SignatureVerified platform rawBody signature config.webhookSecret ∧
      (platform.parseJson rawBody).bind paymobWebhookPayloadSchema = some delivery.payload ∧
      delivery.payload.resolveWebhookTransactionId platform = some delivery.transactionId ∧
      delivery.payload.resolveWebhookOrderId platform = some delivery.orderId := by
  unfold readDelivery at h
  cases hv : validateWebhookSignature platform rawBody signature config.webhookSecret with
  | error e =>
    rw [hv] at h
    cases h
  | ok u =>
    cases hp : (platform.parseJson rawBody).bind paymobWebhookPayloadSchema with
    | none =>
      rw [hv, hp] at h
      cases h
    | some payload =>
      cases ht : (payload.resolveWebhookTransactionId platform).filter (· ≠ "") with
      | none =>
        simp only [hv, hp, ht, bind, Except.bind] at h
        cases h
      | some transactionId =>
        cases ho : (payload.resolveWebhookOrderId platform).filter (· ≠ "") with
        | none =>
          simp only [hv, hp, ht, ho, bind, Except.bind] at h
          cases h
        | some orderId =>
          simp only [hv, hp, ht, ho, bind, Except.bind] at h
          obtain rfl := Except.ok.inj h
          exact ⟨validateWebhookSignature_eq_ok.mp hv, rfl,
            (Option.filter_eq_some_iff.mp ht).1, (Option.filter_eq_some_iff.mp ho).1⟩

end Checks

section Naming
variable {ledger : Ledger} {delivery : Delivery} {payment : Payment}

theorem findByTransactionId_spec {transactionId : String}
    (h : ledger.findByTransactionId transactionId = some payment) :
    ledger.findById payment.id = some payment ∧
      payment.paymobTransactionId = some transactionId :=
  ⟨Table.find?_eq_some_iff.mpr ⟨List.mem_of_find?_eq_some h, rfl⟩,
    by simpa using List.find?_some h⟩

theorem findByOrderId_spec {orderId : String}
    (h : ledger.findByOrderId orderId = some payment) :
    ledger.findById payment.id = some payment ∧ payment.paymobOrderId = some orderId :=
  ⟨Table.find?_eq_some_iff.mpr ⟨List.mem_of_find?_eq_some h, rfl⟩,
    by simpa using List.find?_some h⟩

/-- The payment a delivery is about carries one of the delivery's ids. -/
theorem namedBy_spec (h : ledger.namedBy delivery = some payment) :
    ledger.findById payment.id = some payment ∧
      (payment.paymobTransactionId = some delivery.transactionId ∨
        payment.paymobOrderId = some delivery.orderId) := by
  unfold Ledger.namedBy at h
  cases ht : ledger.findByTransactionId delivery.transactionId with
  | some found =>
    obtain rfl : found = payment := by simpa [ht] using h
    exact ⟨(findByTransactionId_spec ht).1, Or.inl (findByTransactionId_spec ht).2⟩
  | none =>
    have ho : ledger.findByOrderId delivery.orderId = some payment := by simpa [ht] using h
    exact ⟨(findByOrderId_spec ho).1, Or.inr (findByOrderId_spec ho).2⟩

end Naming

section Effect
variable {schema : TransactionsSchema} {platform : Platform} {config : PaymobConfig}
  {ledger : Ledger} {rawBody : String} {signature : Option String}

theorem createTransaction_payments (data : NewTransaction) :
    (transact ledger (ledger.createTransaction schema data)).2.payments = ledger.payments := by
  unfold Ledger.createTransaction
  split
  · rfl
  · split <;> rfl

/-- A property of the payments table survives a delivery if it survives its patch. -/
theorem recordDelivery_payments {Q : Ledger → Prop} {payment : Payment} {delivery : Delivery}
    (stable : ∀ before after : Ledger, after.payments = before.payments → Q before → Q after)
    (start : Q ledger) (patched : acceptDelivery payment delivery = .ok () →
      Q (ledger.modifyPayment payment.id (delivery.patch payment))) :
    wpE (faultily schema) (recordDelivery payment delivery rawBody) (fun _ after => Q after)
      ledger := by
  unfold recordDelivery
  simp only [wpE_bind, wpE_liftM, wpE_pure, wpE_ite, invalidatePaymentCache, perform, wpE_mk_call,
    Program.wp_done, faultily, reliably, performOp]
  cases ha : acceptDelivery payment delivery with
  | error e => exact start
  | ok u =>
    refine ⟨fun _ => start, ?_⟩
    unfold Ledger.update
    by_cases taken : ledger.TransactionTaken payment.id (delivery.patch payment)
    · simp only [if_pos taken, transact]
      exact start
    · simp only [if_neg taken, transact]
      have now := patched ha
      generalize ledger.modifyPayment payment.id (delivery.patch payment) = written at now ⊢
      refine ⟨fun _ => now, ?_⟩
      generalize hc : written.createTransaction schema _ = created
      have kept : Q (transact written created).2 :=
        stable _ _ (hc ▸ createTransaction_payments _) now
      cases created with
      | error e => exact now
      | ok row =>
        have announced : ∀ event, Q (row.2.announce event) :=
          fun event => stable row.2 _ rfl kept
        refine ⟨fun _ => kept, fun _ => kept, ?_⟩
        split
        · exact ⟨fun _ => kept, announced _⟩
        · split
          · exact ⟨fun _ => kept, announced _⟩
          · exact kept

/-- A delivery that names an uncompleted payment is recorded against it. -/
theorem handlePaymobWebhook_named {Q : Except Failure String → Ledger → Prop}
    {delivery : Delivery} {payment : Payment}
    (hd : readDelivery platform config rawBody signature = .ok delivery)
    (named : ledger.namedBy delivery = some payment) (uncompleted : payment.status ≠ .completed)
    (records : wpE (reliably schema) (recordDelivery payment delivery rawBody) Q ledger) :
    wpE (reliably schema) (handlePaymobWebhook platform config rawBody signature) Q ledger := by
  unfold handlePaymobWebhook
  simp only [wpE_bind, wpE_liftM, wpE_pure, wpE_ite, perform, wpE_mk_call, Program.wp_done, hd,
    reliably, performOp]
  unfold Ledger.namedBy at named
  cases hf : ledger.findByTransactionId delivery.transactionId with
  | some existing =>
    obtain rfl : existing = payment := by simpa [hf] using named
    simp only [Option.map_some, Option.some.injEq, uncompleted, if_false]
    exact records
  | none =>
    have registered : ledger.findByOrderId delivery.orderId = some payment := by
      simpa [hf] using named
    simp only [Option.map_none, reduceCtorEq, if_false, wpE_bind, wpE_mk_call, Program.wp_done,
      reliably, performOp, registered]
    exact records

/-- The payments are as they were, or the payment the delivery names was patched. -/
def DeliveryEffect (platform : Platform) (config : PaymobConfig) (post : Post)
    (ledger after : Ledger) : Prop :=
  after.payments = ledger.payments ∨
    ∃ delivery payment, readDelivery platform config post.rawBody post.signature = .ok delivery ∧
      ledger.namedBy delivery = some payment ∧ acceptDelivery payment delivery = .ok () ∧
      after.payments = (ledger.modifyPayment payment.id (delivery.patch payment)).payments

/-- One delivery, whatever throws while it is handled. -/
theorem deliver_effect (post : Post) :
    DeliveryEffect platform config post ledger
      (deliver schema platform config ledger post).2 := by
  have stable : ∀ before after : Ledger, after.payments = before.payments →
      DeliveryEffect platform config post ledger before →
      DeliveryEffect platform config post ledger after := by
    intro before after same h
    unfold DeliveryEffect
    rwa [same]
  have unchanged : DeliveryEffect platform config post ledger ledger := Or.inl rfl
  have recorded : ∀ delivery payment,
      readDelivery platform config post.rawBody post.signature = .ok delivery →
      ledger.namedBy delivery = some payment →
      wpE (faultily schema) (recordDelivery payment delivery post.rawBody)
        (fun _ after => DeliveryEffect platform config post ledger after) ledger :=
    fun delivery payment hd named => recordDelivery_payments stable unchanged
      fun accepted => Or.inr ⟨delivery, payment, hd, named, accepted, rfl⟩
  refine eval_faultily (Q := fun _ after => DeliveryEffect platform config post ledger after) ?_
    post.choices
  change wpE (faultily schema) (handlePaymobWebhook platform config post.rawBody post.signature)
    (fun _ after => DeliveryEffect platform config post ledger after) ledger
  unfold handlePaymobWebhook
  cases hd : readDelivery platform config post.rawBody post.signature with
  | error e => exact unchanged
  | ok delivery =>
    simp only [wpE_bind, wpE_liftM, wpE_pure, wpE_ite, perform, wpE_mk_call, Program.wp_done,
      faultily, reliably, performOp]
    refine ⟨fun _ => unchanged, ?_⟩
    split
    · exact unchanged
    · cases ht : ledger.findByTransactionId delivery.transactionId with
      | some payment =>
        exact recorded delivery payment hd (by simp [Ledger.namedBy, ht])
      | none =>
        simp only [wpE_bind, wpE_mk_call, Program.wp_done, faultily, reliably, performOp]
        refine ⟨fun _ => unchanged, ?_⟩
        cases ho : ledger.findByOrderId delivery.orderId with
        | some payment =>
          exact recorded delivery payment hd (by simp [Ledger.namedBy, ht, ho])
        | none => exact unchanged

/-- A delivery that takes a payment to `completed` was signed, named the payment by one
of its ids, and reported exactly its amount: in every ledger, for both payload shapes,
whatever throws on the way. -/
theorem completed_byAuthenticCapture (schema : TransactionsSchema) (platform : Platform)
    (config : PaymobConfig) (ledger : Ledger) (post : Post) (paymentId : Nat)
    (before : ledger.statusOf paymentId ≠ some .completed)
    (after : (deliver schema platform config ledger post).2.statusOf paymentId =
      some .completed) :
    SignatureVerified platform post.rawBody post.signature config.webhookSecret ∧
    ∃ payload payment,
      (platform.parseJson post.rawBody).bind paymobWebhookPayloadSchema = some payload ∧
      ledger.findById paymentId = some payment ∧
      (∃ named, (payload.resolveWebhookTransactionId platform = some named ∧
          payment.paymobTransactionId = some named) ∨
        (payload.resolveWebhookOrderId platform = some named ∧
          payment.paymobOrderId = some named)) ∧
      payload.resolveWebhookAmountCents = some payment.amount := by
  have effect : DeliveryEffect platform config post ledger
      (deliver schema platform config ledger post).2 := deliver_effect post
  rcases effect with same | ⟨delivery, payment, hd, named, accepted, patched⟩
  · rw [Ledger.statusOf, same] at after
    exact absurd after before
  · obtain ⟨verified, parsed, hTransaction, hOrder⟩ := readDelivery_eq_ok hd
    obtain ⟨found, registered⟩ := namedBy_spec named
    obtain ⟨-, amountMatches⟩ := acceptDelivery_eq_ok.mp accepted
    have now : (ledger.modifyPayment payment.id (delivery.patch payment)).statusOf paymentId =
        some .completed := by
      rw [← after]
      simp only [Ledger.statusOf, patched]
    rw [statusOf_eq, findById_modifyPayment] at now
    by_cases hp : paymentId = payment.id
    · subst hp
      rw [if_pos rfl, found] at now
      have reported : delivery.payload.resolveWebhookStatus = .completed := by
        simpa [PaymentPatch.apply, Delivery.patch] using now
      refine ⟨verified, delivery.payload, payment, parsed, found, ?_, amountMatches reported⟩
      rcases registered with byTransaction | byOrder
      · exact ⟨_, Or.inl ⟨hTransaction, byTransaction⟩⟩
      · exact ⟨_, Or.inr ⟨hOrder, byOrder⟩⟩
    · rw [if_neg hp, ← statusOf_eq] at now
      exact absurd now before

end Effect

/-- Transaction 7 of order 11 was captured with 100 minor units. -/
def settledBody : SignedBody where
  text := "\x7b\"data\":\x7b\"id\":7,\"order\":\x7b\"id\":11\x7d,\"amount_cents\":100," ++
    "\"success\":true,\"pending\":false\x7d\x7d"
  json := .obj [("data", .obj [("id", .int 7), ("order", .obj [("id", .int 11)]),
    ("amount_cents", .int 100), ("success", .bool true), ("pending", .bool false)])]
  digest := "533c6f439cac9455a053aa482c421006fc503b937676389ea6ab6009a3005194"
  fingerprint := "b5942a705b688f5a9f6a5a67e7a8dfecfae6d692f6a25596ab244d4aa8463837"

/-- The same transaction while the bank has not decided. -/
def pendingBody : SignedBody where
  text := "\x7b\"data\":\x7b\"id\":7,\"order\":\x7b\"id\":11\x7d,\"amount_cents\":100," ++
    "\"success\":false,\"pending\":true\x7d\x7d"
  json := .obj [("data", .obj [("id", .int 7), ("order", .obj [("id", .int 11)]),
    ("amount_cents", .int 100), ("success", .bool false), ("pending", .bool true)])]
  digest := "5a8b98d0614eab75c48116da748475abaddbe2dcefbb0154d64342c0f460db8a"
  fingerprint := "32daeb5a2b53799dcb44a99e51c0b8e348efc4ad4ddbe7014a697d8feb8afb36"

def gateway : Platform := .ofBodies [settledBody, pendingBody]

/-- A delivery with a correct signature during which nothing throws. -/
def signedPost (body : SignedBody) : Post := ⟨body.text, some body.digest, fun _ => .quiet⟩

theorem completed_byAuthenticCapture_settled :
    SignatureVerified gateway settledBody.text (some settledBody.digest)
      PaymobConfig.default.webhookSecret ∧
    ∃ payload payment,
      (gateway.parseJson settledBody.text).bind paymobWebhookPayloadSchema = some payload ∧
      (Ledger.single .pending none).findById 0 = some payment ∧
      (∃ named, (payload.resolveWebhookTransactionId gateway = some named ∧
          payment.paymobTransactionId = some named) ∨
        (payload.resolveWebhookOrderId gateway = some named ∧
          payment.paymobOrderId = some named)) ∧
      payload.resolveWebhookAmountCents = some payment.amount :=
  completed_byAuthenticCapture paymentTransactionsP gateway .default (Ledger.single .pending none)
    (signedPost settledBody) 0 (by decide) (by decide)

end Payments
