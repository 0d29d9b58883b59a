import Hakawi.Effects.Pool
import Hakawi.Payments.Service
import Mathlib.Algebra.Order.BigOperators.Group.List

/-!
# Status writes of concurrent requests

Webhook deliveries and operator updates read a payment, check the transition
against what they read, and write later without a condition. A request that
completes a payment then owes one announcement. As long as every write finds the
status its request read, statuses follow `PAYMENT_TRANSITIONS` and a payment is
announced as completed at most once.
-/

namespace Payments

open Common Store Effects

/-- What a request remembers: the payment it read last, or the one it completed. -/
inductive StatusStage where
  | idle
  | read (id : Nat) (status : PaymentStatus)
  | owes (id : Nat)
  deriving DecidableEq

namespace StatusStage

def allowed : StatusStage → PaymentsOp → Prop
  | read own old, .update id patch =>
    own = id ∧ ∃ new, patch.status = some new ∧ new ∈ PAYMENT_TRANSITIONS old
  | stage, .emit (.completed id) => stage = owes id
  | _, .emit _ => True
  | _, .findById _ => True
  | _, .findByOrderId _ => True
  | _, .findByTransactionId _ => True
  | _, .createTransaction _ => True
  | _, .invalidateKey _ _ => True
  | _, .invalidateTags _ => True
  | _, _ => False

def next : StatusStage → (op : PaymentsOp) → op.Result → StatusStage
  | _, .findById id, .ok (some payment) => read id payment.status
  | _, .findByOrderId _, .ok (some payment) => read payment.id payment.status
  | _, .findByTransactionId _, .ok (some payment) => read payment.id payment.status
  | _, .update id patch, .ok _ => if patch.status = some .completed then owes id else idle
  | _, .update _ _, .error _ => idle
  | _, .emit (.completed _), _ => idle
  | stage, _, _ => stage

def protocol : Protocol PaymentsOp PaymentsOp.Result StatusStage := ⟨allowed, next⟩

@[simp] theorem protocol_spec (op : PaymentsOp) (Q : op.Result → StatusStage → Prop)
    (stage : StatusStage) :
    protocol.spec op Q stage = (allowed stage op ∧ ∀ r, Q r (next stage op r)) := rfl

end StatusStage

/-- The requests that write a payment's status. -/
inductive StatusRequest where
  | webhook (rawBody : String) (signature : Option String)
  | updateStatus (id : Nat) (status : PaymentStatus)

def StatusRequest.handler (platform : Platform) (config : PaymobConfig) :
    StatusRequest → Handler Unit
  | webhook rawBody signature => do
    let _ ← handlePaymobWebhook platform config rawBody signature
  | updateStatus id status => do
    let _ ← Payments.updateStatus id status

open StatusStage

variable {platform : Platform} {config : PaymobConfig}

theorem updateStatus_follows (id : Nat) (status : PaymentStatus) {stage : StatusStage} :
    wpE protocol.spec (updateStatus id status) (fun _ _ => True) stage := by
  unfold updateStatus
  simp only [wpE_bind, wpE_liftM, wpE_pure, wpE_ite, invalidatePaymentCache, perform, wpE_mk_call,
    Program.wp_done, protocol_spec, forall_result, allowed, next, true_and, implies_true,
    and_true]
  intro found
  cases he : existingPayment found with
  | error e => trivial
  | ok payment =>
    obtain ⟨rfl, -⟩ := existingPayment_eq_ok.mp he
    cases hv : validateStatusTransition payment.status status with
    | error e => simp [hv]
    | ok u =>
      simp only [hv]
      refine ⟨⟨trivial, status, rfl, validateStatusTransition_eq_ok.mp hv⟩, fun _ _ _ => ?_⟩
      by_cases hs : status = .completed <;> simp [hs]

theorem recordDelivery_follows (payment : Payment) (delivery : Delivery) (rawBody : String) :
    wpE protocol.spec (recordDelivery payment delivery rawBody) (fun _ _ => True)
      (read payment.id payment.status) := by
  unfold recordDelivery
  simp only [wpE_bind, wpE_liftM, wpE_pure, wpE_ite, invalidatePaymentCache, perform, wpE_mk_call,
    Program.wp_done, protocol_spec, forall_result, allowed, next, true_and, implies_true,
    and_true]
  cases ha : acceptDelivery payment delivery with
  | error e => trivial
  | ok u =>
    refine ⟨⟨_, rfl, (acceptDelivery_eq_ok.mp ha).1⟩, fun _ _ _ _ => ?_⟩
    by_cases hs : delivery.payload.resolveWebhookStatus = .completed <;>
      simp [hs, Delivery.patch]

theorem handlePaymobWebhook_follows (rawBody : String) (signature : Option String) :
    wpE protocol.spec (handlePaymobWebhook platform config rawBody signature)
      (fun _ _ => True) idle := by
  unfold handlePaymobWebhook
  cases hd : readDelivery platform config rawBody signature with
  | error e => simp
  | ok delivery =>
    simp only [wpE_bind, wpE_liftM, wpE_pure, wpE_ite, perform, wpE_mk_call,
      Program.wp_done, protocol_spec, forall_result, allowed, next, true_and, implies_true,
      and_true]
    intro existing
    split
    · trivial
    · cases existing with
      | some payment => exact recordDelivery_follows payment delivery rawBody
      | none =>
        simp only [wpE_bind, wpE_mk_call, Program.wp_done, protocol_spec, forall_result, allowed,
          next, true_and, implies_true, and_true]
        intro found
        cases found with
        | some payment => exact recordDelivery_follows payment delivery rawBody
        | none => simp

theorem StatusRequest.follows (request : StatusRequest) :
    protocol.Follows idle (request.handler platform config).run := by
  change wpE protocol.spec (request.handler platform config) (fun _ _ => True) idle
  cases request with
  | webhook rawBody signature =>
    simp only [handler, wpE_bind, wpE_pure]
    refine wpE_mono (Protocol.spec_monotone _) (fun r s _ => ?_)
      (handlePaymobWebhook_follows rawBody signature)
    cases r <;> trivial
  | updateStatus id status =>
    simp only [handler, wpE_bind, wpE_pure]
    refine wpE_mono (Protocol.spec_monotone _) (fun r s _ => ?_) (updateStatus_follows id status)
    cases r <;> trivial

/-- The payment still has the status the request read. -/
def StatusStage.Current (ledger : Ledger) (id : Nat) : StatusStage → Prop
  | read _ status => ledger.statusOf id = some status
  | idle => True
  | owes _ => True

instance (ledger : Ledger) (id : Nat) (stage : StatusStage) : Decidable (stage.Current ledger id) :=
  match stage with
  | .read _ _ => inferInstanceAs (Decidable (_ = _))
  | .idle | .owes _ => .isTrue trivial

/-- A write that goes through finds the payment with the status its request read. -/
def FreshWrite (choice : Choice) (ledger : Ledger) (stage : StatusStage) (op : PaymentsOp) : Prop :=
  match op with
  | .update id _ => choice.fault = none → stage.Current ledger id
  | _ => True

instance (choice : Choice) (ledger : Ledger) (stage : StatusStage) (op : PaymentsOp) :
    Decidable (FreshWrite choice ledger stage op) :=
  match op with
  | .update _ _ => inferInstanceAs (Decidable (_ → _))
  | .findById _ | .findByOrderId _ | .findByTransactionId _ | .createTransaction _
  | .updateRefund _ _ | .reserveRefundCapacity _ | .reconcileRefundCapacity _
  | .invalidateKey _ _ | .invalidateTags _ | .emit _ | .getAuthToken
  | .refundAttempt _ _ => .isTrue trivial

/-- Whether the request still owes the announcement of the payment. -/
def StatusStage.owing (paymentId : Nat) (stage : StatusStage) : Int :=
  if stage = owes paymentId then 1 else 0

theorem StatusStage.owing_nonneg (paymentId : Nat) (stage : StatusStage) :
    0 ≤ stage.owing paymentId := by
  unfold owing
  split <;> omega

/-- One step of one request, on the ledger and on its own stage. -/
inductive StatusStep (before : Ledger) : StatusStage → Ledger → StatusStage → Prop where
  /-- Neither a status nor an announcement; the request owes no more than before. -/
  | quiet (stage stage' : StatusStage) (after : Ledger)
      (statuses : ∀ id, after.statusOf id = before.statusOf id)
      (events : ∀ id, after.completions id = before.completions id)
      (owed : ∀ id, stage'.owing id ≤ stage.owing id) : StatusStep before stage after stage'
  | write (id : Nat) (old new : PaymentStatus) (after : Ledger)
      (edge : new ∈ PAYMENT_TRANSITIONS old) (found : before.statusOf id = some old)
      (written : after.statusOf id = some new)
      (others : ∀ other, other ≠ id → after.statusOf other = before.statusOf other)
      (events : ∀ id, after.completions id = before.completions id) :
      StatusStep before (read id old) after (if new = .completed then owes id else idle)
  | announce (id : Nat) (after : Ledger) (statuses : ∀ id, after.statusOf id = before.statusOf id)
      (events : ∀ other, after.completions other =
        before.completions other + if other = id then 1 else 0) :
      StatusStep before (owes id) after idle

namespace StatusStep
variable {before : Ledger} {stage : StatusStage}

theorem stay {stage' : StatusStage} (owed : ∀ id, stage'.owing id ≤ stage.owing id) :
    StatusStep before stage before stage' := .quiet _ _ _ (fun _ => rfl) (fun _ => rfl) owed

theorem same (after : Ledger) (payments : after.payments = before.payments)
    (events : after.events = before.events) : StatusStep before stage after stage :=
  .quiet _ _ _ (fun _ => by simp only [Ledger.statusOf, payments])
    (fun _ => by simp only [Ledger.completions, events]) fun _ => Int.le_refl _

end StatusStep

theorem owing_read_le {id : Nat} {status : PaymentStatus} (stage : StatusStage) (other : Nat) :
    (read id status).owing other ≤ stage.owing other := stage.owing_nonneg other

theorem owing_idle_le (stage : StatusStage) (other : Nat) :
    idle.owing other ≤ stage.owing other := stage.owing_nonneg other

section Steps
variable {schema : TransactionsSchema} {before : Ledger}

theorem step_of_update {id : Nat} {old new : PaymentStatus} {patch : PaymentPatch}
    (edge : new ∈ PAYMENT_TRANSITIONS old) (written : patch.status = some new)
    (found : before.statusOf id = some old) :
    let r := transact before (before.update id patch)
    StatusStep before (read id old) r.2 (next (read id old) (.update id patch) r.1) := by
  unfold Ledger.update
  split
  · exact .stay (owing_idle_le _)
  · obtain ⟨payment, hp, rfl⟩ := Option.map_eq_some_iff.mp found
    have result : next (read id payment.status) (.update id patch)
        (.ok ((before.findById id).map patch.apply)) =
          if new = .completed then owes id else idle := by
      simp [next, written]
    have now : (before.modifyPayment id patch).findById id = some (patch.apply payment) := by
      rw [Ledger.findById_modifyPayment, if_pos rfl]
      exact congrArg (Option.map patch.apply) hp
    simp only [transact]
    rw [result]
    refine .write id payment.status new _ edge found ?_ (fun other ho => ?_) fun _ => rfl
    · rw [Ledger.statusOf_eq, now]
      simp [PaymentPatch.apply, written]
    · rw [Ledger.statusOf_eq, Ledger.findById_modifyPayment, if_neg ho]
      rfl

theorem next_find_owing {stage : StatusStage} (found : Except Failure (Option Payment)) (other : Nat) :
    (∀ id, (next stage (.findById id) found).owing other ≤ stage.owing other) ∧
    (∀ orderId, (next stage (.findByOrderId orderId) found).owing other ≤ stage.owing other) ∧
    ∀ transactionId,
      (next stage (.findByTransactionId transactionId) found).owing other ≤ stage.owing other := by
  cases found with
  | error e => exact ⟨fun _ => Int.le_refl _, fun _ => Int.le_refl _, fun _ => Int.le_refl _⟩
  | ok row =>
    cases row with
    | none => exact ⟨fun _ => Int.le_refl _, fun _ => Int.le_refl _, fun _ => Int.le_refl _⟩
    | some payment =>
      exact ⟨fun _ => owing_read_le _ _, fun _ => owing_read_le _ _, fun _ => owing_read_le _ _⟩

theorem step_of_createTransaction {stage : StatusStage} (data : NewTransaction) :
    StatusStep before stage (transact before (before.createTransaction schema data)).2 stage := by
  unfold Ledger.createTransaction
  split
  · exact .same _ rfl rfl
  · split <;> exact .same _ rfl rfl

theorem step_of_emit {stage : StatusStage} {event : PaymentEvent} {answer : Except Failure Unit}
    (ok : allowed stage (.emit event)) :
    StatusStep before stage (before.announce event) (next stage (.emit event) answer) := by
  cases event with
  | completed id =>
    obtain rfl : stage = owes id := by cases stage <;> exact ok
    refine .announce id _ (fun _ => rfl) fun other => ?_
    simp only [Ledger.announce, Ledger.completions, List.count_append]
    by_cases ho : other = id
    · simp [ho]
    · have : ¬ id = other := fun e => ho e.symm
      simp [ho, this]
  | _ =>
    refine .quiet _ _ _ (fun _ => rfl) (fun id => ?_) fun id => ?_
    · simp [Ledger.announce, Ledger.completions, List.count_append]
    · cases stage <;> exact Int.le_refl _

/-- Every allowed call whose write is fresh is a step. -/
theorem statusStep_of_exec {choice : Choice} {stage : StatusStage} {op : PaymentsOp}
    (ok : allowed stage op) (fresh : FreshWrite choice before stage op) :
    StatusStep before stage (exec schema choice before op).2
      (next stage op (exec schema choice before op).1) := by
  cases hf : choice.fault with
  | some failure =>
    simp only [exec, hf]
    refine .stay fun id => ?_
    cases op with
    | update _ _ => cases stage <;> exact owing_idle_le _ id
    | emit event =>
      cases event with
      | completed _ => cases stage <;> exact owing_idle_le _ id
      | _ => cases stage <;> exact Int.le_refl _
    | _ => cases stage <;> exact Int.le_refl _
  | none =>
    simp only [exec, hf, performOp]
    cases op with
    | findById id => exact .stay fun other => (next_find_owing _ other).1 id
    | findByOrderId orderId => exact .stay fun other => (next_find_owing _ other).2.1 orderId
    | findByTransactionId transactionId =>
      exact .stay fun other => (next_find_owing _ other).2.2 transactionId
    | update id patch =>
      cases stage with
      | read own old =>
        obtain ⟨rfl, new, written, edge⟩ := ok
        exact step_of_update edge written (fresh hf)
      | _ => exact ok.elim
    | createTransaction data => cases stage <;> exact step_of_createTransaction data
    | emit event => exact step_of_emit ok
    | invalidateKey _ _ => cases stage <;> exact .same _ rfl rfl
    | invalidateTags _ => cases stage <;> exact .same _ rfl rfl
    | _ => cases stage <;> exact ok.elim

end Steps

/-- A status and the next one: unchanged, or an edge of `PAYMENT_TRANSITIONS`. -/
def StatusEdge (before after : Option PaymentStatus) : Prop :=
  after = before ∨
    ∃ old new, before = some old ∧ after = some new ∧ new ∈ PAYMENT_TRANSITIONS old

/-- Whether the payment has been completed, and perhaps refunded since. -/
def Ledger.settled (ledger : Ledger) (paymentId : Nat) : Int :=
  if ledger.statusOf paymentId = some .completed ∨ ledger.statusOf paymentId = some .refunded then 1
  else 0

/-- The announcements made and owed do not exceed the completions. -/
def AnnouncedOnce (paymentId : Nat) (ledger : Ledger) (stages : List StatusStage) : Prop :=
  ledger.completions paymentId + (stages.map (StatusStage.owing paymentId)).sum ≤
    ledger.settled paymentId

section Invariant
variable {before after : Ledger} {stages : List StatusStage} {i : Nat}
  {stage stage' : StatusStage} {paymentId : Nat}

theorem statusEdge_step (step : StatusStep before stage after stage') :
    StatusEdge (before.statusOf paymentId) (after.statusOf paymentId) := by
  cases step with
  | quiet _ _ _ statuses events owed => exact Or.inl (statuses paymentId)
  | write id old new _ edge found written others events =>
    by_cases hp : paymentId = id
    · subst hp
      exact Or.inr ⟨old, new, found, written, edge⟩
    · exact Or.inl (others paymentId hp)
  | announce id _ statuses events => exact Or.inl (statuses paymentId)

theorem settled_congr (h : after.statusOf paymentId = before.statusOf paymentId) :
    after.settled paymentId = before.settled paymentId := by
  simp only [Ledger.settled, h]

/-- An edge that completes a payment starts where it was not yet completed. -/
theorem settled_write {id : Nat} {old new : PaymentStatus} (edge : new ∈ PAYMENT_TRANSITIONS old)
    (found : before.statusOf id = some old) (written : after.statusOf id = some new) :
    before.settled id + (if new = .completed then 1 else 0) ≤ after.settled id := by
  simp only [Ledger.settled, found, written]
  cases old <;> cases new <;> simp_all [PAYMENT_TRANSITIONS]

theorem owing_written (id : Nat) (new : PaymentStatus) :
    (if new = .completed then owes id else idle).owing paymentId =
      if new = .completed ∧ id = paymentId then 1 else 0 := by
  by_cases hn : new = .completed <;> by_cases hi : id = paymentId <;>
    simp [StatusStage.owing, hn, hi]

theorem announcedOnce_step (inv : AnnouncedOnce paymentId before stages)
    (h : stages[i]? = some stage) (step : StatusStep before stage after stage') :
    AnnouncedOnce paymentId after (stages.set i stage') := by
  unfold AnnouncedOnce at inv ⊢
  rw [Pool.sum_map_set _ h]
  cases step with
  | quiet _ _ _ statuses events owed =>
    rw [settled_congr (statuses paymentId), events]
    have := owed paymentId
    omega
  | write id old new _ edge found written others events =>
    rw [events, owing_written, show (read id old).owing paymentId = 0 from rfl]
    by_cases hp : id = paymentId
    · subst hp
      have bound := settled_write edge found written
      simp only [and_true]
      omega
    · rw [settled_congr (others paymentId fun e => hp e.symm), if_neg fun e => hp e.2]
      omega
  | announce id _ statuses events =>
    rw [settled_congr (statuses paymentId), events, show idle.owing paymentId = 0 from rfl]
    by_cases hp : paymentId = id
    · subst hp
      have owed : (owes paymentId).owing paymentId = 1 := if_pos rfl
      simp only [if_true, owed]
      omega
    · have notOwed := (owes id).owing_nonneg paymentId
      simp only [if_neg hp]
      omega

end Invariant

/-- Any number of deliveries and operator updates, on one ledger. -/
def statusPool (platform : Platform) (config : PaymobConfig) (ledger : Ledger)
    (requests : List StatusRequest) :
    Pool Ledger PaymentsOp PaymentsOp.Result (Except Failure Unit) :=
  ⟨ledger, requests.map fun r => (r.handler platform config).run⟩

section Runs
variable {schema : TransactionsSchema} {ledger : Ledger} {requests : List StatusRequest}
  {paymentId : Nat}

theorem statusPool_follow :
    Pool.Follow protocol (List.replicate requests.length idle)
      (statusPool platform config ledger requests) := by
  have each : ∀ p ∈ (statusPool platform config ledger requests).threads,
      protocol.Follows idle p := by
    intro p hp
    obtain ⟨r, -, rfl⟩ := List.mem_map.mp hp
    exact r.follows
  have follow := Pool.follow_replicate each ledger
  rwa [statusPool, List.length_map] at follow

theorem announcedOnce_preserved :
    Pool.Preserves (exec schema) protocol FreshWrite (AnnouncedOnce paymentId) := by
  intro choice before stages i stage op h inv allowed fresh
  exact announcedOnce_step inv h (statusStep_of_exec allowed fresh)

theorem announcedOnce_start {n : Nat} (unannounced : ledger.completions paymentId = 0) :
    AnnouncedOnce paymentId ledger (List.replicate n idle) := by
  have owed : ((List.replicate n idle).map (StatusStage.owing paymentId)).sum = 0 := by
    simp [StatusStage.owing]
  have settled : 0 ≤ ledger.settled paymentId := by
    unfold Ledger.settled
    split <;> omega
  unfold AnnouncedOnce
  omega

theorem completions_le_one {stages : List StatusStage}
    (h : AnnouncedOnce paymentId ledger stages) : ledger.completions paymentId ≤ 1 := by
  have owed : 0 ≤ (stages.map (StatusStage.owing paymentId)).sum := by
    refine List.sum_nonneg fun n hn => ?_
    obtain ⟨stage, -, rfl⟩ := List.mem_map.mp hn
    exact stage.owing_nonneg paymentId
  have settled : ledger.settled paymentId ≤ 1 := by
    unfold Ledger.settled
    split <;> omega
  unfold AnnouncedOnce at h
  omega

/-- However deliveries and operator updates interleave, as long as every status write
finds the status its request read, the statuses a payment takes follow the transition
table and the payment is announced as completed at most once. -/
theorem statusWrites_ordered (schema : TransactionsSchema) (platform : Platform)
    (config : PaymobConfig) (ledger : Ledger) (requests : List StatusRequest) (paymentId : Nat)
    (unannounced : ledger.completions paymentId = 0) (schedule : List (Nat × Choice))
    (fresh : Pool.Meets (exec schema) protocol FreshWrite schedule
      (List.replicate requests.length idle) (statusPool platform config ledger requests)) :
    let after := fun turns =>
      ((statusPool platform config ledger requests).run (exec schema) turns).state
    (∀ early turn late, schedule = early ++ turn :: late →
      StatusEdge ((after early).statusOf paymentId) ((after (early ++ [turn])).statusOf paymentId)) ∧
    (after schedule).completions paymentId ≤ 1 := by
  intro after
  have start : AnnouncedOnce paymentId ledger (List.replicate requests.length idle) :=
    announcedOnce_start unannounced
  constructor
  · rintro early ⟨i, choice⟩ late rfl
    obtain ⟨before, now⟩ := (Pool.meets_append _ _ _ _ _ _).mp fresh
    have follow := (Pool.run_invariant announcedOnce_preserved start statusPool_follow before).2
    simp only [after, Pool.run_append, Pool.run_cons, Pool.run_nil]
    rcases Pool.advance_cases follow now with ⟨same, -⟩ | ⟨g, op, hg, allowed, hok, hs, -, -⟩
    · exact Or.inl (by rw [same])
    · rw [hs]
      exact statusEdge_step (statusStep_of_exec allowed hok)
  · have holds := (Pool.run_invariant announcedOnce_preserved start statusPool_follow fresh).1
    exact completions_le_one holds

/-- Two operators one after the other: the second finds what the first wrote. -/
theorem statusWrites_ordered_inTurn :
    let pool := statusPool .plain .default (Ledger.single .pending none)
      [.updateStatus 0 .processing, .updateStatus 0 .completed]
    let schedule := List.replicate 4 (0, Choice.quiet) ++ List.replicate 5 (1, Choice.quiet)
    let after := fun turns => (pool.run (exec paymentTransactionsP) turns).state
    (∀ early turn late, schedule = early ++ turn :: late →
      StatusEdge ((after early).statusOf 0) ((after (early ++ [turn])).statusOf 0)) ∧
    (after schedule).completions 0 ≤ 1 :=
  statusWrites_ordered paymentTransactionsP .plain .default _ _ 0 rfl _ (by decide)

/-- Three operators read a payment in processing before any of them writes. -/
def staleWrites : List (Nat × Choice) :=
  [(0, .quiet), (1, .quiet), (2, .quiet), (0, .quiet), (1, .quiet)]

/-- A completed payment becomes failed, and its completion is announced twice. -/
theorem statusWrites_stale :
    let pool := statusPool .plain .default (Ledger.single .processing none)
      [.updateStatus 0 .completed, .updateStatus 0 .completed, .updateStatus 0 .failed]
    let after := fun turns => (pool.run (exec paymentTransactionsP) turns).state
    (after staleWrites).statusOf 0 = some .completed ∧
      (after (staleWrites ++ [(2, .quiet)])).statusOf 0 = some .failed ∧
      PaymentStatus.failed ∉ PAYMENT_TRANSITIONS .completed ∧
      ¬ (after (staleWrites ++ List.replicate 3 (0, .quiet) ++
        List.replicate 3 (1, .quiet))).completions 0 ≤ 1 := by
  decide

end Runs

end Payments
