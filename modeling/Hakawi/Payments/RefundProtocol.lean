import Hakawi.Effects.Pool
import Hakawi.Payments.Service

/-!
# What a refund request may call

A refund request reserves once, sends the reserved amount to the gateway, and
writes the outcome to its own refund row once. Once an attempt has been answered
with success or pending, the row is no longer marked as failed.
-/

namespace Payments

open Common Effects

/-- An answer the service takes for a refund. -/
def Accepting : Except Failure PaymobRefundResponse → Prop
  | .ok response => response.success = some true ∨ response.pending = some true
  | .error _ => False

instance : (answer : Except Failure PaymobRefundResponse) → Decidable (Accepting answer)
  | .ok _ => inferInstanceAs (Decidable (_ ∨ _))
  | .error _ => .isFalse id

/-- How far a refund request has come. -/
inductive RefundStage where
  | idle
  | reserved (refundId : Nat) (amountCents : Int)
  | submitted (refundId : Nat)
  | done
  deriving DecidableEq

namespace RefundStage

def allowed (paymentId : Nat) : RefundStage → PaymentsOp → Prop
  | idle, .reserveRefundCapacity input => input.paymentId = paymentId ∧ 0 < input.amountCents
  | reserved _ amountCents, .refundAttempt _ cents => cents = amountCents
  | reserved id _, .updateRefund refundId patch =>
    refundId = id ∧ patch.status ∈ [some .failed, some .pending, some .processed]
  | submitted id, .updateRefund refundId patch =>
    refundId = id ∧ patch.status ∈ [some .pending, some .processed]
  | _, .findById _ => True
  | _, .reconcileRefundCapacity _ => True
  | _, .invalidateKey _ _ => True
  | _, .invalidateTags _ => True
  | _, .emit _ => True
  | _, .getAuthToken => True
  | _, _ => False

/-- The stage after the gateway has been heard. -/
def answered (refundId : Nat) (amountCents : Int) (accepted : Prop) [Decidable accepted] :
    RefundStage :=
  if accepted then submitted refundId else reserved refundId amountCents

theorem answered_congr {id : Nat} {cents : Int} {p q : Prop} [Decidable p] [Decidable q]
    (h : p ↔ q) : answered id cents p = answered id cents q := by
  simp only [answered, h]

def next : RefundStage → (op : PaymentsOp) → op.Result → RefundStage
  | _, .reserveRefundCapacity _, .ok reservation =>
    reserved reservation.refund.id reservation.refund.amount
  | reserved id amountCents, .refundAttempt _ _, answer =>
    answered id amountCents (Accepting answer)
  | _, .updateRefund _ _, _ => done
  | stage, _, _ => stage

def protocol (paymentId : Nat) : Protocol PaymentsOp PaymentsOp.Result RefundStage :=
  ⟨allowed paymentId, next⟩

@[simp] theorem protocol_spec (paymentId : Nat) (op : PaymentsOp)
    (Q : op.Result → RefundStage → Prop) (stage : RefundStage) :
    (protocol paymentId).spec op Q stage =
      (allowed paymentId stage op ∧ ∀ r, Q r (next stage op r)) := rfl

end RefundStage

open RefundStage

variable {platform : Platform} {config : PaymobConfig} {paymentId : Nat}

/-- A loop of attempts keeps what every attempt keeps. -/
theorem wpE_withRetries {X α : Type} {spec : Program.OpSpec PaymentsOp PaymentsOp.Result X}
    (mono : spec.Monotone) {attempt : Handler α} {inv : X → Prop} {Q : Except Failure α → X → Prop}
    (one : ∀ x, inv x → wpE spec attempt (fun r y => Q r y ∧ ∀ e, r = .error e → inv y) x)
    (remaining : Nat) (x : X) (h : inv x) : wpE spec (withRetries attempt remaining) Q x := by
  induction remaining generalizing x with
  | zero => exact wpE_mono mono (fun r y hy => hy.1) (one x h)
  | succ remaining ih =>
    simp only [withRetries, wpE_tryCatch]
    refine wpE_mono mono (fun r y hy => ?_) (one x h)
    cases r with
    | ok a => exact hy.1
    | error e =>
      simp only [wpE_ite, wpE_throw]
      split
      · exact ih y (hy.2 e rfl)
      · exact hy.1

section
variable {refund : Refund} {amountCents : Int}

theorem refuseRefund_follows {α : Type} {id : Nat} {detail : List (String × Json)} {error : Failure}
    {Q : Except Failure α → RefundStage → Prop} (hQ : ∀ e, Q (.error e) done) :
    wpE (protocol paymentId).spec (refuseRefund refund id detail error) Q
      (reserved refund.id amountCents) := by
  simp [refuseRefund, markRefundFailed, releaseRefundCapacity, invalidatePaymentCache,
    forall_result, allowed, next, hQ]

/-- However many attempts are made, the stage is that of the answer that is returned. -/
theorem attempts_follow {transactionId : String} (remaining : Nat) :
    wpE (protocol paymentId).spec
      (withRetries (call (.refundAttempt transactionId amountCents)) remaining)
      (fun answer stage => stage = answered refund.id amountCents (Accepting answer))
      (reserved refund.id amountCents) := by
  refine wpE_withRetries (Protocol.spec_monotone _) ?_ remaining _ rfl
  rintro stage rfl
  simp only [perform, wpE_mk_call, Program.wp_done, protocol_spec, allowed, next, true_and]
  rintro answer e rfl
  rfl

theorem refundTransaction_follows {transactionId : String}
    {Q : Except Failure PaymobRefundResult → RefundStage → Prop}
    (refused : ∀ e, Q (.error e) (reserved refund.id amountCents))
    (heard : ∀ result : PaymobRefundResult,
      Q (.ok result) (answered refund.id amountCents (result.success ∨ result.pending))) :
    wpE (protocol paymentId).spec (refundTransaction platform config transactionId amountCents) Q
      (reserved refund.id amountCents) := by
  by_cases hi : paymobRefundInputIssues transactionId amountCents = []
  · simp only [refundTransaction, hi, ne_eq, not_true_eq_false, if_false, wpE_bind, wpE_pure,
      wpE_tryCatch, wpE_throw, perform, wpE_mk_call, Program.wp_done, protocol_spec, forall_result,
      allowed, next, true_and]
    refine ⟨fun _ => ?_, refused⟩
    refine wpE_mono (Protocol.spec_monotone _) (fun answer stage hs => ?_)
      (attempts_follow config.retryMaxAttempts)
    rw [hs]
    cases answer with
    | error e => exact refused _
    | ok response =>
      have same : (decide (response.success = some true) = true ∨
          decide (response.pending = some true) = true) ↔ Accepting (.ok response) := by
        simp [Accepting]
      have accepted := heard {
        refundId := response.refundId.getD response.id
        success := response.success = some true
        pending := response.pending = some true
        isRefund := response.isRefund = some true
        raw := response.raw }
      rwa [answered_congr same] at accepted
  · simpa [refundTransaction, hi] using refused _

theorem settleRefund_follows {payment : Payment} {result : PaymobRefundResult}
    {Q : Except Failure (Option Refund) → RefundStage → Prop} (hQ : ∀ r, Q r done) :
    wpE (protocol paymentId).spec (settleRefund payment refund result) Q
      (answered refund.id amountCents (result.success ∨ result.pending)) := by
  cases hp : result.pending <;> cases hs : result.success
  · simpa [settleRefund, hp, hs, answered] using refuseRefund_follows fun _ => hQ _
  all_goals simp [settleRefund, hp, hs, answered, forall_result, allowed, next, hQ]

theorem submitRefundToGateway_follows {payment : Payment}
    {Q : Except Failure (Option Refund) → RefundStage → Prop} (hQ : ∀ r, Q r done) :
    wpE (protocol paymentId).spec (submitRefundToGateway platform config payment refund) Q
      (reserved refund.id refund.amount) := by
  unfold submitRefundToGateway
  cases payment.paymobTransactionId.filter (· ≠ "") with
  | none => exact refuseRefund_follows fun _ => hQ _
  | some transactionId =>
    simp only [wpE_bind, wpE_tryCatch]
    refine refundTransaction_follows (fun _ => ?_) (fun _ => ?_)
    · exact refuseRefund_follows fun _ => hQ _
    · exact settleRefund_follows hQ

end

theorem positive_of_validateAmount {amount : Rat} {cents : Int}
    (h : validateAmount amount = .ok cents) : 0 < cents := by
  unfold validateAmount at h
  cases hs : paymobAmountCentsSchema amount with
  | error issues => simp [hs] at h
  | ok value =>
    rw [hs] at h
    obtain rfl := Except.ok.inj h
    exact (paymobAmountCentsSchema_eq_ok.mp hs).2.1

/-- Every refund request of the payment follows the protocol, whatever it is answered. -/
theorem createRefund_follows (amount : Rat) (reason : Option String) :
    (protocol paymentId).Follows idle
      (createRefund platform config paymentId amount reason).run := by
  change wpE (protocol paymentId).spec (createRefund platform config paymentId amount reason)
    (fun _ _ => True) idle
  cases ha : validateAmount amount with
  | error e => simp [createRefund, ha]
  | ok cents =>
    have positive := positive_of_validateAmount ha
    simp only [createRefund, ha, wpE_bind, wpE_liftM, wpE_tryCatch, wpE_throw, perform, wpE_mk_call,
      Program.wp_done, protocol_spec, forall_result, allowed, next, true_and]
    refine ⟨fun found => ?_, fun _ => trivial⟩
    cases existingPayment found with
    | error e => trivial
    | ok payment =>
      cases hc : validateCurrency platform (some payment.currency) with
      | error e => simp [hc]
      | ok currency =>
        simp only [hc]
        refine ⟨positive, fun reservation => ?_, fun _ => trivial⟩
        rw [pursueReservation, wpE_ite]
        split
        · exact refuseRefund_follows fun _ => trivial
        · simp only [wpE_bind, wpE_mk_call, invalidatePaymentCache, perform, Program.wp_done,
            protocol_spec, forall_result, allowed, next, true_and, implies_true, and_true]
          exact fun _ _ _ => submitRefundToGateway_follows fun _ => trivial

end Payments
