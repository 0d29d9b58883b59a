import Hakawi.Effects.Program
import Hakawi.Payments.Repository

/-!
# What the payments service can do

The calls that leave the service, each one atomic: the methods of the
repository, the cache, the event bus and one HTTP attempt at the gateway. The
environment decides, call by call, whether it throws, and for an HTTP attempt
separately what Paymob carries out and what reaches the service as its answer.
-/

namespace Payments

open Common Store Effects

inductive PaymentsOp where
  | findById (id : Nat)
  | findByOrderId (orderId : String)
  | findByTransactionId (transactionId : String)
  | update (id : Nat) (patch : PaymentPatch)
  | createTransaction (data : NewTransaction)
  | updateRefund (id : Nat) (patch : RefundPatch)
  | reserveRefundCapacity (input : RefundInput)
  | reconcileRefundCapacity (paymentId : Nat)
  | invalidateKey (cacheNamespace : String) (id : Nat)
  | invalidateTags (tags : List String)
  | emit (event : PaymentEvent)
  | getAuthToken
  | refundAttempt (transactionId : String) (amountCents : Int)

/-- The validated body of a refund answer, and the body itself. -/
structure PaymobRefundResponse where
  id : String
  refundId : Option String := none
  success : Option Bool := none
  pending : Option Bool := none
  isRefund : Option Bool := none
  raw : Json := .null

namespace PaymentsOp

@[reducible] def Answer : PaymentsOp → Type
  | findById _ => Option Payment
  | findByOrderId _ => Option Payment
  | findByTransactionId _ => Option Payment
  | update _ _ => Option Payment
  | createTransaction _ => PaymentTransaction
  | updateRefund _ _ => Option Refund
  | reserveRefundCapacity _ => RefundReservation
  | reconcileRefundCapacity _ => RefundCapacityReconciliation
  | invalidateKey _ _ => Unit
  | invalidateTags _ => Unit
  | emit _ => Unit
  | getAuthToken => String
  | refundAttempt _ _ => PaymobRefundResponse

@[reducible] def Result (op : PaymentsOp) : Type := Except Failure op.Answer

end PaymentsOp

/-- What becomes of one HTTP attempt. Paymob may execute it and the answer still
be lost, or be rejected on the way back by a layer of the client. -/
structure AttemptOutcome where
  executed : Bool
  answer : Except Failure PaymobRefundResponse

/-- What the environment decides about one call. -/
structure Choice where
  /-- The call throws and its own write is not applied. -/
  fault : Option Failure := none
  authToken : Except Failure String := .error (.error "no token")
  attempt : AttemptOutcome := ⟨false, .error (.error "no answer")⟩

namespace Choice

/-- Nothing throws on its way; the gateway may still refuse. -/
def Reliable (choice : Choice) : Prop := choice.fault = none

def quiet : Choice := {}

def token : Choice := { authToken := .ok "token" }

def attempted (executed : Bool) (answer : Except Failure PaymobRefundResponse) : Choice :=
  { attempt := ⟨executed, answer⟩ }

end Choice

/-- Commit a transaction, or roll it back. -/
def transact {α : Type} (ledger : Ledger) (body : Except Failure (α × Ledger)) :
    Except Failure α × Ledger :=
  match body with
  | .ok (a, committed) => (.ok a, committed)
  | .error error => (.error error, ledger)

def Ledger.execute (ledger : Ledger) (transactionId : String) (amountCents : Int)
    (outcome : AttemptOutcome) : Ledger :=
  if outcome.executed then
    { ledger with gatewayRefunds := ledger.gatewayRefunds ++ [⟨transactionId, amountCents⟩] }
  else ledger

namespace Ledger
variable (ledger : Ledger) (transactionId : String) (cents : Int) (outcome : AttemptOutcome)

theorem execute_payments :
    (ledger.execute transactionId cents outcome).payments = ledger.payments := by
  unfold execute
  split <;> rfl

theorem execute_refunds :
    (ledger.execute transactionId cents outcome).refunds = ledger.refunds := by
  unfold execute
  split <;> rfl

theorem execute_amountOf (id : Nat) :
    (ledger.execute transactionId cents outcome).amountOf id = ledger.amountOf id := by
  simp only [amountOf, findById, execute_payments]

theorem gatewayRefunded_execute (other : String) :
    (ledger.execute transactionId cents outcome).gatewayRefunded other =
      ledger.gatewayRefunded other +
        if outcome.executed ∧ transactionId = other then cents else 0 := by
  unfold execute gatewayRefunded
  by_cases he : outcome.executed <;> by_cases ho : transactionId = other <;> simp [he, ho]

end Ledger

def Ledger.announce (ledger : Ledger) (event : PaymentEvent) : Ledger :=
  { ledger with events := ledger.events ++ [event] }

/-- A call that does not throw on its way. -/
def performOp (schema : TransactionsSchema) (choice : Choice) (ledger : Ledger) :
    (op : PaymentsOp) → op.Result × Ledger
  | .findById id => (.ok (ledger.findById id), ledger)
  | .findByOrderId orderId => (.ok (ledger.findByOrderId orderId), ledger)
  | .findByTransactionId transactionId => (.ok (ledger.findByTransactionId transactionId), ledger)
  | .update id patch => transact ledger (ledger.update id patch)
  | .createTransaction data => transact ledger (ledger.createTransaction schema data)
  | .updateRefund id patch => ((.ok (ledger.updateRefund id patch).1), (ledger.updateRefund id patch).2)
  | .reserveRefundCapacity input => transact ledger (ledger.reserveRefundCapacity input)
  | .reconcileRefundCapacity paymentId =>
    transact ledger (ledger.reconcileRefundCapacity paymentId)
  | .invalidateKey _ _ => (.ok (), ledger)
  | .invalidateTags _ => (.ok (), ledger)
  | .emit event => (.ok (), ledger.announce event)
  | .getAuthToken => (choice.authToken, ledger)
  | .refundAttempt transactionId amountCents =>
    (choice.attempt.answer, ledger.execute transactionId amountCents choice.attempt)

def exec (schema : TransactionsSchema) (choice : Choice) (ledger : Ledger) (op : PaymentsOp) :
    op.Result × Ledger :=
  match choice.fault with
  | some failure => (.error failure, ledger)
  | none => performOp schema choice ledger op

section Reliable
variable {schema : TransactionsSchema}

theorem exec_reliable {choice : Choice} (h : choice.Reliable) (ledger : Ledger) (op : PaymentsOp) :
    exec schema choice ledger op = performOp schema choice ledger op := by
  simp only [exec, show choice.fault = none from h]

/-- The calls when none throws on its way: only the gateway still has a choice. -/
def reliably (schema : TransactionsSchema) : Program.OpSpec PaymentsOp PaymentsOp.Result Ledger
  | .getAuthToken, Q, ledger => ∀ token, Q token ledger
  | .refundAttempt transactionId amountCents, Q, ledger =>
    ∀ outcome : AttemptOutcome,
      Q outcome.answer (ledger.execute transactionId amountCents outcome)
  | op, Q, ledger =>
    Q (performOp schema .quiet ledger op).1 (performOp schema .quiet ledger op).2

theorem reliably_monotone : (reliably schema).Monotone := by
  intro op Q Q' ledger weaker h
  cases op with
  | getAuthToken => exact fun token => weaker _ _ (h token)
  | refundAttempt transactionId amountCents => exact fun outcome => weaker _ _ (h outcome)
  | _ => exact weaker _ _ h

theorem reliably_sound {op : PaymentsOp} {Q : op.Result → Ledger → Prop} {ledger : Ledger}
    (h : reliably schema op Q ledger) :
    Program.execSpec (exec schema) Choice.Reliable op Q ledger := by
  intro choice hc
  rw [exec_reliable hc]
  cases op with
  | getAuthToken => exact h choice.authToken
  | refundAttempt transactionId amountCents => exact h choice.attempt
  | _ => exact h

/-- What is proved for reliable calls holds of every run without faults. -/
theorem eval_reliable {α : Type} {p : Program PaymentsOp PaymentsOp.Result α}
    {Q : α → Ledger → Prop} {ledger : Ledger} (h : p.wp (reliably schema) Q ledger)
    {choices : Nat → Choice} (hc : ∀ n, (choices n).Reliable) :
    Q (p.eval (exec schema) choices ledger).1 (p.eval (exec schema) choices ledger).2 :=
  Program.eval_of_wp (Program.wp_weaken_spec
    (Program.execSpec_monotone _ _) (fun _ _ _ => reliably_sound) h) hc

/-- The calls when any of them may throw instead. -/
def faultily (schema : TransactionsSchema) : Program.OpSpec PaymentsOp PaymentsOp.Result Ledger :=
  fun op Q ledger => (∀ failure, Q (.error failure) ledger) ∧ reliably schema op Q ledger

/-- What is proved for calls that may throw holds of every run. -/
theorem eval_faultily {α : Type} {p : Program PaymentsOp PaymentsOp.Result α}
    {Q : α → Ledger → Prop} {ledger : Ledger} (h : p.wp (faultily schema) Q ledger)
    (choices : Nat → Choice) :
    Q (p.eval (exec schema) choices ledger).1 (p.eval (exec schema) choices ledger).2 := by
  have sound : ∀ op (Q : op.Result → Ledger → Prop) ledger, faultily schema op Q ledger →
      Program.execSpec (exec schema) (fun _ => True) op Q ledger := by
    intro op Q ledger hop choice _
    cases hf : choice.fault with
    | some failure =>
      simp only [exec, hf]
      exact hop.1 failure
    | none => exact reliably_sound hop.2 choice hf
  exact Program.eval_of_wp (Program.wp_weaken_spec (Program.execSpec_monotone _ _) sound h)
    fun _ => trivial

end Reliable

/-- A request handler: it calls, and returns or throws. -/
abbrev Handler (α : Type) : Type := Fallible PaymentsOp PaymentsOp.Result Failure α

abbrev call (op : PaymentsOp) : Handler op.Answer := perform op

end Payments
