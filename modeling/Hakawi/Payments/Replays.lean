import Hakawi.Effects.Bystander
import Hakawi.Payments.Deliveries
import Hakawi.Payments.StatusWrites

/-!
# Deliveries one after another

The gateway repeats a delivery until it is answered. The insert into
`payment_transactions_p` supplies neither column the table demands, so nothing
after it ever runs; the status was written before it, and the next delivery takes
that for the whole settlement.
-/

namespace Payments

open Common Store Effects Ledger

/-- Deliveries until one is answered without an error, with its answer. -/
def deliverUntilAnswered (schema : TransactionsSchema) (platform : Platform)
    (config : PaymobConfig) : Ledger → List Post → Option String × Ledger
  | ledger, [] => (none, ledger)
  | ledger, post :: rest =>
    match deliver schema platform config ledger post with
    | (.ok answer, after) => (some answer, after)
    | (.error _, after) => deliverUntilAnswered schema platform config after rest

/-- The payment is completed, its settlement is on record, and it has been announced. -/
structure Settled (ledger : Ledger) (paymentId : Nat) : Prop where
  completed : ledger.statusOf paymentId = some .completed
  recorded : ∃ row ∈ ledger.transactions.rows, row.paymentId = paymentId
  announced : 0 < ledger.completions paymentId

section Recording
variable {platform : Platform} {config : PaymobConfig}

/-- Neither a transaction row nor an event. -/
def RecordsNothing (before after : Ledger) : Prop :=
  after.transactions = before.transactions ∧ after.events = before.events

/-- Nothing was recorded, and the only answer is the one to a repeated delivery. -/
def EndsUnrecorded (before : Ledger) (result : Except Failure String) (after : Ledger) : Prop :=
  RecordsNothing before after ∧ ∀ answer, result = .ok answer → answer = "already_processed"

theorem endsUnrecorded_error {before after : Ledger} (h : RecordsNothing before after)
    (failure : Failure) : EndsUnrecorded before (.error failure) after :=
  ⟨h, fun _ hr => by cases hr⟩

theorem createTransaction_refused (ledger : Ledger) (data : NewTransaction) :
    ledger.createTransaction paymentTransactionsP data = .error (.notNullViolation "id") := rfl

theorem recordDelivery_unrecorded {ledger : Ledger} (payment : Payment) (delivery : Delivery)
    (rawBody : String) :
    wpE (faultily paymentTransactionsP) (recordDelivery payment delivery rawBody)
      (EndsUnrecorded ledger) ledger := by
  unfold recordDelivery
  simp only [wpE_bind, wpE_liftM, perform, wpE_mk_call, Program.wp_done, faultily, reliably,
    performOp, createTransaction_refused]
  have stops : ∀ failure, EndsUnrecorded ledger (.error failure) ledger :=
    endsUnrecorded_error ⟨rfl, rfl⟩
  cases acceptDelivery payment delivery with
  | error e => exact stops e
  | ok u =>
    refine ⟨stops, ?_⟩
    unfold Ledger.update
    by_cases taken : ledger.TransactionTaken payment.id (delivery.patch payment)
    · simp only [if_pos taken, transact]
      exact stops _
    · simp only [if_neg taken, transact]
      exact ⟨endsUnrecorded_error ⟨rfl, rfl⟩, endsUnrecorded_error ⟨rfl, rfl⟩ _⟩

theorem handlePaymobWebhook_unrecorded {ledger : Ledger} (rawBody : String)
    (signature : Option String) :
    wpE (faultily paymentTransactionsP) (handlePaymobWebhook platform config rawBody signature)
      (EndsUnrecorded ledger) ledger := by
  have stops : ∀ failure, EndsUnrecorded ledger (.error failure) ledger :=
    endsUnrecorded_error ⟨rfl, rfl⟩
  unfold handlePaymobWebhook
  cases readDelivery platform config rawBody signature with
  | error e => exact stops e
  | ok delivery =>
    simp only [wpE_bind, wpE_liftM, wpE_pure, wpE_ite, perform, wpE_mk_call, Program.wp_done,
      faultily, reliably, performOp]
    refine ⟨stops, ?_⟩
    split
    · exact ⟨⟨rfl, rfl⟩, fun _ hr => (Except.ok.inj hr).symm⟩
    · cases ledger.findByTransactionId delivery.transactionId with
      | some payment => exact recordDelivery_unrecorded payment delivery rawBody
      | none =>
        simp only [wpE_bind, wpE_mk_call, Program.wp_done, faultily, reliably, performOp]
        refine ⟨stops, ?_⟩
        cases ledger.findByOrderId delivery.orderId with
        | some payment => exact recordDelivery_unrecorded payment delivery rawBody
        | none => exact stops _

/-- What is true of one delivery is true of a run of them. -/
theorem deliverUntilAnswered_unrecorded (ledger : Ledger) (posts : List Post) :
    let run := deliverUntilAnswered paymentTransactionsP platform config ledger posts
    RecordsNothing ledger run.2 ∧ ∀ answer, run.1 = some answer → answer = "already_processed" := by
  induction posts generalizing ledger with
  | nil => exact ⟨⟨rfl, rfl⟩, fun _ hr => by cases hr⟩
  | cons post rest ih =>
    have first : EndsUnrecorded ledger
        (deliver paymentTransactionsP platform config ledger post).1
        (deliver paymentTransactionsP platform config ledger post).2 :=
      eval_faultily (handlePaymobWebhook_unrecorded post.rawBody post.signature) post.choices
    unfold deliverUntilAnswered
    cases hd : deliver paymentTransactionsP platform config ledger post with
    | mk result after =>
      rw [hd] at first
      cases result with
      | ok answer => exact ⟨first.1, fun _ hr => first.2 _ (congrArg _ (Option.some.inj hr))⟩
      | error e =>
        obtain ⟨⟨rows, events⟩, answers⟩ := ih after
        exact ⟨⟨rows.trans first.1.1, events.trans first.1.2⟩, answers⟩

/-- A run of deliveries that ends in an answer has not settled its payment: whatever
throws and however often the gateway repeats, the answer is that everything has been
processed, and there is neither a transaction row nor an announcement. -/
theorem answered_notSettled (platform : Platform) (config : PaymobConfig) (ledger : Ledger)
    (posts : List Post) (paymentId : Nat) (answer : String)
    (unrecorded : ∀ row ∈ ledger.transactions.rows, row.paymentId ≠ paymentId)
    (answered :
      (deliverUntilAnswered paymentTransactionsP platform config ledger posts).1 = some answer) :
    let after := (deliverUntilAnswered paymentTransactionsP platform config ledger posts).2
    answer = "already_processed" ∧ ¬ Settled after paymentId ∧
      after.completions paymentId = ledger.completions paymentId := by
  intro after
  obtain ⟨⟨rows, events⟩, answers⟩ := deliverUntilAnswered_unrecorded ledger posts
  refine ⟨answers answer answered, ?_, by simp only [after, completions, events]⟩
  rintro ⟨-, ⟨row, hr, hp⟩, -⟩
  rw [rows] at hr
  exact unrecorded row hr hp

end Recording

/-- The first delivery dies on the insert, and the second is answered. -/
theorem answered_notSettled_repeated :
    let after := (deliverUntilAnswered paymentTransactionsP gateway .default
      (Ledger.single .pending none) [signedPost settledBody, signedPost settledBody]).2
    "already_processed" = "already_processed" ∧ ¬ Settled after 0 ∧
      after.completions 0 = (Ledger.single .pending none).completions 0 :=
  answered_notSettled gateway .default _ _ 0 "already_processed" (by decide) (by decide)

/-- What the second answer reports as processed: a completed payment without a row of
its settlement, of which nobody was told. -/
theorem answered_withoutSettlement :
    let run := deliverUntilAnswered paymentTransactionsP gateway .default
      (Ledger.single .pending none) [signedPost settledBody, signedPost settledBody]
    run.1 = some "already_processed" ∧ run.2.statusOf 0 = some .completed ∧
      (¬ ∃ row ∈ run.2.transactions.rows, row.paymentId = 0) ∧ run.2.completions 0 = 0 := by
  decide

end Payments

/-!
## The same delivery again

A delivery that was answered may arrive again at any later time, after and amid
any other deliveries, refunds and status updates. The replay check looks for the
payment that carries the delivery's transaction id, and swallows the delivery if
that payment is `completed`. A payment that has been refunded since, or whose
transaction id another delivery has replaced, is no replay to it: the delivery
goes on to the transition check, which refuses it, or to the writes.
-/

namespace Payments

open Common Store Effects

/-- The requests that write rows of payments, refunds or transactions. -/
inductive PaymentRequest where
  | status (request : StatusRequest)
  | refund (paymentId : Nat) (amount : Rat) (reason : Option String)

def PaymentRequest.handler (platform : Platform) (config : PaymobConfig) :
    PaymentRequest → Handler Unit
  | status request => request.handler platform config
  | refund paymentId amount reason => do
    let _ ← createRefund platform config paymentId amount reason

/-- A delivery, as a request. -/
def PaymentRequest.webhook (rawBody : String) (signature : Option String) : PaymentRequest :=
  .status (.webhook rawBody signature)

/-- Any requests about any payments, on one ledger. -/
def requestPool (platform : Platform) (config : PaymobConfig) (ledger : Ledger)
    (requests : List PaymentRequest) :
    Pool Ledger PaymentsOp PaymentsOp.Result (Except Failure Unit) :=
  ⟨ledger, requests.map fun request => (request.handler platform config).run⟩

/-- No payment, transaction or refund row has changed, and nothing was emitted. -/
structure Untouched (before after : Ledger) : Prop where
  payments : after.payments = before.payments
  transactions : after.transactions = before.transactions
  refunds : after.refunds = before.refunds
  events : after.events = before.events

theorem Untouched.refl (ledger : Ledger) : Untouched ledger ledger := ⟨rfl, rfl, rfl, rfl⟩

/-- Request `i` has been answered without an error. -/
def Answered (pool : Pool Ledger PaymentsOp PaymentsOp.Result (Except Failure Unit)) (i : Nat) :
    Prop :=
  pool.result? i = some (.ok ())

instance (pool : Pool Ledger PaymentsOp PaymentsOp.Result (Except Failure Unit)) (i : Nat) :
    Decidable (Answered pool i) :=
  inferInstanceAs (Decidable (_ = _))

/-- Request `j` is answered without an error, and none of its turns touches anything. -/
def Swallowed (schema : TransactionsSchema)
    (pool : Pool Ledger PaymentsOp PaymentsOp.Result (Except Failure Unit)) (j : Nat)
    (schedule : List (Nat × Choice)) : Prop :=
  Answered (pool.run (exec schema) schedule) j ∧
    Pool.Spares (exec schema) Untouched j schedule pool

/-- The payment that carries the delivery's transaction id is completed. -/
def KnownCompleted (platform : Platform) (config : PaymobConfig) (ledger : Ledger)
    (rawBody : String) (signature : Option String) : Prop :=
  ∃ delivery, readDelivery platform config rawBody signature = .ok delivery ∧
    (ledger.findByTransactionId delivery.transactionId).map Payment.status = some .completed

section Sparing
variable {schema : TransactionsSchema} {platform : Platform} {config : PaymobConfig}

/-- A transaction that was recorded is a row that was not there. -/
theorem createTransaction_touches {choice : Choice} {ledger : Ledger} {data : NewTransaction}
    (untouched : Untouched ledger (exec schema choice ledger (.createTransaction data)).2) :
    ∃ failure, (exec schema choice ledger (.createTransaction data)).1 = .error failure := by
  cases faulty : choice.fault with
  | some failure => exact ⟨failure, by simp only [exec, faulty]⟩
  | none =>
    simp only [exec, faulty, performOp] at untouched ⊢
    cases created : ledger.createTransaction schema data with
    | error failure => exact ⟨failure, rfl⟩
    | ok made =>
      obtain ⟨row, after⟩ := made
      have same : after.transactions = ledger.transactions := by
        simpa only [created, transact] using untouched.transactions
      have grown : after.transactions.rows.length = ledger.transactions.rows.length + 1 := by
        unfold Ledger.createTransaction at created
        split at created
        · cases created
        · split at created
          · cases created
          · cases created
            simp [Table.insert]
      rw [same] at grown
      omega

/-- A delivery that goes on to the writes is not answered without one of them. -/
theorem recordDelivery_unanswered (payment : Payment) (delivery : Delivery) (rawBody : String) :
    wpE (Pool.sparing (exec schema) Untouched) (recordDelivery payment delivery rawBody)
      (fun r _ => ∃ failure, r = .error failure) () := by
  unfold recordDelivery
  simp only [wpE_bind, wpE_liftM, perform, wpE_mk_call, Program.wp_done]
  cases acceptDelivery payment delivery with
  | error failure => exact ⟨failure, rfl⟩
  | ok u =>
    intro choice ledger _
    cases (exec schema choice ledger (.update payment.id (delivery.patch payment))).1 with
    | error failure => exact ⟨failure, rfl⟩
    | ok written =>
      intro choice ledger untouched
      obtain ⟨failure, refused⟩ := createTransaction_touches untouched
      rw [refused]
      exact ⟨failure, rfl⟩

variable (schema) in
/-- A delivery that was read begins with the lookup by transaction id: a completed payment swallows
it, and otherwise it is not answered without a write. -/
theorem webhook_looksUp {delivery : Delivery} {rawBody : String} {signature : Option String}
    (read : readDelivery platform config rawBody signature = .ok delivery) :
    ∃ next, ((PaymentRequest.webhook rawBody signature).handler platform config).run =
        .call (.findByTransactionId delivery.transactionId) next ∧
      (∀ failure, next (.error failure) = .done (.error failure)) ∧
      ∀ existing, if existing.map Payment.status = some .completed
        then next (.ok existing) = .done (.ok ())
        else (next (.ok existing)).wp (Pool.sparing (exec schema) Untouched)
          (fun r _ => r ≠ .ok ()) () := by
  refine ⟨?next, ?begins, fun failure => ?fails, fun existing => ?finds⟩
  case begins =>
    simp only [PaymentRequest.webhook, PaymentRequest.handler, StatusRequest.handler,
      handlePaymobWebhook, read]
    rfl
  case fails => rfl
  case finds =>
    have refused : ∀ (r : Except Failure String) (u : Unit), (∃ failure, r = .error failure) →
        (ExceptT.bindCont (fun _ => pure ()) r : Handler Unit).wp
          (Pool.sparing (exec schema) Untouched) (fun r _ => r ≠ .ok ()) u := by
      rintro _ _ ⟨failure, rfl⟩
      rintro ⟨⟩
    split
    · rename_i completed
      simp only [Program.bind, ExceptT.bindCont, if_pos completed]
      rfl
    · rename_i other
      change (Program.bind _ _).wp _ _ _
      refine (Program.wp_bind _ _ _ _ _).mpr ?_
      refine Program.wp_mono (Pool.sparing_monotone _ _) refused ?_
      simp only [Program.bind, ExceptT.bindCont, if_neg other]
      cases existing with
      | some payment => exact recordDelivery_unanswered payment delivery rawBody
      | none =>
        intro choice ledger _
        cases (exec schema choice ledger (.findByOrderId delivery.orderId)).1 with
        | error failure => exact ⟨failure, rfl⟩
        | ok found =>
          cases found with
          | none => exact ⟨_, rfl⟩
          | some payment => exact recordDelivery_unanswered payment delivery rawBody

end Sparing

section Runs
variable {schema : TransactionsSchema} {platform : Platform} {config : PaymobConfig}
  {ledger : Ledger} {requests : List PaymentRequest} {early late : List (Nat × Choice)}
  {rawBody : String} {signature : Option String}

theorem requestPool_thread {k : Nat} {request : PaymentRequest}
    (asked : requests[k]? = some request) :
    (requestPool platform config ledger requests).threads[k]? =
      some (request.handler platform config).run := by
  simp only [requestPool, List.getElem?_map, asked, Option.map_some]

/-- A delivery that was answered without an error could be read. -/
theorem answered_read {i : Nat}
    (delivered : requests[i]? = some (.webhook rawBody signature))
    (answered : Answered ((requestPool platform config ledger requests).run (exec schema) early) i) :
    ∃ delivery, readDelivery platform config rawBody signature = .ok delivery := by
  cases read : readDelivery platform config rawBody signature with
  | ok delivery => exact ⟨delivery, rfl⟩
  | error failure =>
    have fails : (requestPool platform config ledger requests).threads[i]? =
        some (.done (.error failure)) := by
      rw [requestPool_thread delivered]
      simp only [PaymentRequest.webhook, PaymentRequest.handler, StatusRequest.handler,
        handlePaymobWebhook, read]
      rfl
    have ended := Pool.result?_of_done (Pool.run_done (exec schema) fails early)
    cases ended.symm.trans answered

/-- A delivery that begins in some state, its first turn at the head of the schedule. -/
theorem swallowed_iff {pool : Pool Ledger PaymentsOp PaymentsOp.Result (Except Failure Unit)}
    {j : Nat} {delivery : Delivery} (choice : Choice)
    (read : readDelivery platform config rawBody signature = .ok delivery)
    (begins : pool.threads[j]? =
      some ((PaymentRequest.webhook rawBody signature).handler platform config).run) :
    Swallowed schema pool j ((j, choice) :: late) ↔ choice.fault = none ∧
      (pool.state.findByTransactionId delivery.transactionId).map Payment.status =
        some .completed := by
  obtain ⟨next, looks, fails, finds⟩ := webhook_looksUp schema read
  rw [looks] at begins
  have first := Pool.advance_own (exec schema) begins choice
  constructor
  · rintro ⟨answered, -, spares⟩
    rw [Answered, Pool.run_cons] at answered
    cases faulty : choice.fault with
    | some failure =>
      have ended : (pool.advance (exec schema) (j, choice)).threads[j]? =
          some (.done (.error failure)) := by
        rw [first, ← fails]
        simp only [exec, faulty]
      have refused := Pool.result?_of_done (Pool.run_done (exec schema) ended late)
      cases refused.symm.trans answered
    | none =>
      refine ⟨rfl, ?_⟩
      by_contra other
      have unanswered := finds (pool.state.findByTransactionId delivery.transactionId)
      rw [if_neg other] at unanswered
      simp only [exec, faulty, performOp] at first
      exact Pool.result_of_spares first unanswered spares answered rfl
  · rintro ⟨faultless, completed⟩
    have ended := finds (pool.state.findByTransactionId delivery.transactionId)
    rw [if_pos completed] at ended
    simp only [exec, faultless, performOp, ended] at first
    refine ⟨Pool.result?_of_done (Pool.run_done (exec schema) first late), fun _ => ?_,
      Pool.spares_of_done Untouched.refl first late⟩
    rw [Pool.advance_call (exec schema) begins]
    simp only [exec, faultless, performOp]
    exact Untouched.refl _

end Runs

/-- In every run of deliveries, refunds and status updates, whatever throws in it, a delivery that
was answered without an error and arrives again is swallowed exactly if its lookup does not throw
and finds the payment of its transaction id `completed`. -/
theorem redelivery_swallowed_iff (schema : TransactionsSchema) (platform : Platform)
    (config : PaymobConfig) (ledger : Ledger) (requests : List PaymentRequest)
    (early late : List (Nat × Choice)) (choice : Choice) (i j : Nat) (rawBody : String)
    (signature : Option String) (delivered : requests[i]? = some (.webhook rawBody signature))
    (answered : Answered ((requestPool platform config ledger requests).run (exec schema) early) i)
    (again : requests[j]? = some (.webhook rawBody signature))
    (arrives : ∀ turn ∈ early, turn.1 ≠ j) :
    let now := (requestPool platform config ledger requests).run (exec schema) early
    Swallowed schema now j ((j, choice) :: late) ↔
      choice.fault = none ∧ KnownCompleted platform config now.state rawBody signature := by
  intro now
  obtain ⟨delivery, read⟩ := answered_read delivered answered
  have begins : now.threads[j]? =
      some ((PaymentRequest.webhook rawBody signature).handler platform config).run :=
    (Pool.run_untouched arrives _).trans (requestPool_thread again)
  rw [swallowed_iff choice read begins]
  refine and_congr_right fun _ => ⟨fun completed => ⟨delivery, read, completed⟩, ?_⟩
  rintro ⟨delivery', read', completed⟩
  cases read.symm.trans read'
  exact completed

/-- The first delivery dies on the insert, the second is answered, and the payment is refunded. -/
def refundedAfterwards : List (Nat × Choice) :=
  List.replicate 4 (0, .quiet) ++ [(1, .quiet)] ++ List.replicate 5 (2, .quiet) ++
    [(2, .token), (2, .attempted true (.ok { id := "31", success := some true })),
      (2, .quiet), (2, .quiet)]

def refundedRequests : List PaymentRequest :=
  [.webhook settledBody.text (some settledBody.digest),
    .webhook settledBody.text (some settledBody.digest), .refund 0 100 none,
    .webhook settledBody.text (some settledBody.digest)]

set_option maxRecDepth 8000 in
theorem redelivery_swallowed_refunded :
    let now := (requestPool gateway .default (Ledger.single .pending none) refundedRequests).run
      (exec paymentTransactionsP) refundedAfterwards
    Swallowed paymentTransactionsP now 3 [(3, .quiet)] ↔ Choice.quiet.fault = none ∧
      KnownCompleted gateway .default now.state settledBody.text (some settledBody.digest) :=
  redelivery_swallowed_iff paymentTransactionsP gateway .default _ refundedRequests
    refundedAfterwards [] .quiet 1 3 _ _ rfl (by decide) rfl (by decide)

set_option maxRecDepth 8000 in
/-- The delivery that was answered while the payment was `completed` is refused once the payment
has been refunded. -/
theorem redelivery_refused :
    let now := (requestPool gateway .default (Ledger.single .pending none) refundedRequests).run
      (exec paymentTransactionsP) refundedAfterwards
    Answered now 1 ∧ now.state.statusOf 0 = some .refunded ∧
      (now.run (exec paymentTransactionsP) [(3, .quiet)]).result? 3 = some (.error
        (.badRequest "Invalid payment status transition from refunded to completed")) ∧
      ¬ Swallowed paymentTransactionsP now 3 [(3, .quiet)] := by
  intro now
  have refused : ¬ Answered (now.run (exec paymentTransactionsP) [(3, .quiet)]) 3 := by
    decide
  exact ⟨by decide, by decide, by decide, fun swallowed => refused swallowed.1⟩

end Payments
