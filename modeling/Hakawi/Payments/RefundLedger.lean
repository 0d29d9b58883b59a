import Hakawi.Payments.RefundProtocol
import Mathlib.Algebra.Order.BigOperators.Group.List

/-!
# The refund ledger

The refund requests of one payment seen as steps on the ledger: reserve, send,
settle, and steps that leave the refunds alone. The capacity invariant holds
after every step; the money the gateway has paid out stays within what the
ledger still holds as long as the gateway is heard whenever it pays.
-/

namespace Payments

open Common Store Effects RefundStage

/-- One step of one refund request, on the ledger and on its own stage. -/
inductive RefundStep (honest : AttemptOutcome → Prop) (paymentId : Nat) (before : Ledger) :
    RefundStage → Ledger → RefundStage → Prop where
  /-- Nothing about refunds changes. -/
  | quiet (stage : RefundStage) (after : Ledger) (refunds : after.refunds = before.refunds)
      (gateway : after.gatewayRefunds = before.gatewayRefunds)
      (amounts : ∀ id, after.amountOf id = before.amountOf id) :
      RefundStep honest paymentId before stage after stage
  | reserve (input : RefundInput) (amount : Int) (after : Ledger)
      (own : input.paymentId = paymentId) (positive : 0 < input.amountCents)
      (payment : before.amountOf paymentId = some amount)
      (room : before.reservedTotal paymentId + input.amountCents ≤ amount)
      (refunds : after.refunds = (before.insertRefund input).2.refunds)
      (gateway : after.gatewayRefunds = before.gatewayRefunds)
      (amounts : ∀ id, after.amountOf id = before.amountOf id) :
      RefundStep honest paymentId before idle after (reserved before.refunds.next input.amountCents)
  | send (id : Nat) (cents : Int) (transactionId : String) (outcome : AttemptOutcome)
      (heard : honest outcome) :
      RefundStep honest paymentId before (reserved id cents)
        (before.execute transactionId cents outcome) (answered id cents (Accepting outcome.answer))
  | settle (id : Nat) (cents : Int) (patch : RefundPatch)
      (written : patch.status = some .pending ∨ patch.status = some .processed) (stage : RefundStage)
      (own : stage = reserved id cents ∨ stage = submitted id) :
      RefundStep honest paymentId before stage (before.updateRefund id patch).2 done
  | fail (id : Nat) (cents : Int) (patch : RefundPatch) (written : patch.status = some .failed) :
      RefundStep honest paymentId before (reserved id cents) (before.updateRefund id patch).2 done
  /-- The write of the outcome failed. -/
  | abandon (stage : RefundStage) : RefundStep honest paymentId before stage before done

variable {honest : AttemptOutcome → Prop} {paymentId : Nat} {schema : TransactionsSchema}

theorem RefundStep.stay {before after : Ledger} {stage : RefundStage}
    (h : after = before) : RefundStep honest paymentId before stage after stage :=
  .quiet _ _ (h ▸ rfl) (h ▸ rfl) fun _ => h ▸ rfl

theorem step_of_reserve {before : Ledger} {input : RefundInput} (own : input.paymentId = paymentId)
    (positive : 0 < input.amountCents) :
    let r := transact before (before.reserveRefundCapacity input)
    RefundStep honest paymentId before idle r.2 (next idle (.reserveRefundCapacity input) r.1) := by
  cases h : before.reserveRefundCapacity input with
  | error e => exact .stay rfl
  | ok admitted =>
    obtain ⟨payment, hl, -, room, heq⟩ := Ledger.reserveRefundCapacity_ok h
    have amount : before.amountOf paymentId = some payment.amount := by
      rw [← own, Ledger.amountOf, (Ledger.lockPayment_eq_ok.mp hl).1]
      rfl
    subst heq
    exact .reserve input _ _ own positive amount (own ▸ room) (Ledger.admitRefund_refunds ..)
      (Ledger.admitRefund_gatewayRefunds ..) (Ledger.admitRefund_amountOf _ _ _ _)

theorem step_of_reconcile {before : Ledger} {stage : RefundStage} (id : Nat) :
    RefundStep honest paymentId before stage
      (transact before (before.reconcileRefundCapacity id)).2 stage := by
  cases h : before.reconcileRefundCapacity id with
  | error e => exact .stay rfl
  | ok reconciled =>
    obtain ⟨payment, -, -, heq⟩ := Ledger.reconcileRefundCapacity_ok h
    refine .quiet _ _ ?_ ?_ fun id => ?_
    · exact heq ▸ Ledger.repairDerivedStatus_refunds ..
    · exact heq ▸ Ledger.repairDerivedStatus_gatewayRefunds ..
    · exact heq ▸ Ledger.repairDerivedStatus_amountOf _ _ _ _

theorem step_of_updateRefund {before : Ledger} {stage : RefundStage} {id : Nat}
    {patch : RefundPatch} (ok : allowed paymentId stage (.updateRefund id patch)) :
    RefundStep honest paymentId before stage (before.updateRefund id patch).2 done := by
  cases stage with
  | idle => exact ok.elim
  | done => exact ok.elim
  | reserved own cents =>
    obtain ⟨rfl, hs⟩ := ok
    simp only [List.mem_cons, List.not_mem_nil, or_false] at hs
    rcases hs with hs | hs
    · exact .fail id cents patch hs
    · exact .settle id cents patch hs _ (Or.inl rfl)
  | submitted own =>
    obtain ⟨rfl, hs⟩ := ok
    simp only [List.mem_cons, List.not_mem_nil, or_false] at hs
    exact .settle id 0 patch hs _ (Or.inr rfl)

/-- Every allowed call is a step of the refund ledger. -/
theorem step_of_exec {choice : Choice} {before : Ledger} {stage : RefundStage} {op : PaymentsOp}
    (ok : allowed paymentId stage op)
    (heard : ∀ transactionId cents, op = .refundAttempt transactionId cents →
      choice.fault = none → honest choice.attempt) :
    RefundStep honest paymentId before stage (exec schema choice before op).2
      (next stage op (exec schema choice before op).1) := by
  cases hf : choice.fault with
  | some failure =>
    simp only [exec, hf]
    cases op with
    | updateRefund id patch => exact .abandon stage
    | _ => cases stage <;> exact .stay rfl
  | none =>
    simp only [exec, hf, performOp]
    cases op with
    | updateRefund id patch => exact step_of_updateRefund ok
    | reconcileRefundCapacity id => cases stage <;> exact step_of_reconcile id
    | reserveRefundCapacity input =>
      cases stage with
      | idle => exact step_of_reserve ok.1 ok.2
      | _ => exact ok.elim
    | refundAttempt transactionId cents =>
      cases stage with
      | reserved id amountCents =>
        obtain rfl : cents = amountCents := ok
        exact .send id cents transactionId choice.attempt (heard transactionId cents rfl hf)
      | _ => exact ok.elim
    | emit event => cases stage <;> exact .quiet _ _ rfl rfl fun _ => rfl
    | _ => cases stage <;> first | exact ok.elim | exact .stay rfl

namespace RefundStage

/-- The refund row the request still has to write. -/
def openRefund : RefundStage → Option Nat
  | reserved id _ => some id
  | submitted id => some id
  | _ => none

/-- What the request has reserved and the gateway has not yet been heard to pay. -/
def unsent : RefundStage → Int
  | reserved _ cents => cents
  | _ => 0

@[simp] theorem unsent_idle : idle.unsent = 0 := rfl

@[simp] theorem unsent_reserved (id : Nat) (cents : Int) : (reserved id cents).unsent = cents := rfl

@[simp] theorem unsent_submitted (id : Nat) : (submitted id).unsent = 0 := rfl

@[simp] theorem unsent_done : done.unsent = 0 := rfl

end RefundStage

/-- The row of an open request is there, pending, and for the reserved amount. -/
def Backed (paymentId : Nat) (ledger : Ledger) : RefundStage → Prop
  | .reserved id cents => 0 < cents ∧ ∃ refund, ledger.refunds.find? id = some refund ∧
      refund.paymentId = paymentId ∧ refund.status = .pending ∧ refund.amount = cents
  | .submitted id => ∃ refund, ledger.refunds.find? id = some refund ∧
      refund.paymentId = paymentId ∧ refund.status = .pending
  | _ => True

def Owns (stages : List RefundStage) (i id : Nat) : Prop :=
  (stages[i]?).bind openRefund = some id

/-- What holds of the ledger and of the requests in flight. -/
structure CapacityInv (paymentId : Nat) (ledger : Ledger) (stages : List RefundStage) : Prop where
  withinAmount : ∀ amount, ledger.amountOf paymentId = some amount →
    ledger.reservedTotal paymentId ≤ amount
  backed : ∀ (i : Nat) stage, stages[i]? = some stage → Backed paymentId ledger stage
  distinct : ∀ i j id, Owns stages i id → Owns stages j id → i = j

theorem backed_congr {before after : Ledger} {stage : RefundStage}
    (same : ∀ id, stage.openRefund = some id →
      after.refunds.find? id = before.refunds.find? id)
    (h : Backed paymentId before stage) : Backed paymentId after stage := by
  cases stage with
  | reserved id cents => simpa only [Backed, same id rfl] using h
  | submitted id => simpa only [Backed, same id rfl] using h
  | _ => trivial

theorem unsent_nonneg {ledger : Ledger} {stage : RefundStage}
    (h : Backed paymentId ledger stage) : 0 ≤ stage.unsent := by
  cases stage with
  | reserved id cents => exact Int.le_of_lt h.1
  | _ => exact Int.le_refl 0

theorem backed_lt_next {ledger : Ledger} {stage : RefundStage} {id : Nat}
    (h : Backed paymentId ledger stage) (ho : stage.openRefund = some id) :
    id < ledger.refunds.next := by
  cases stage with
  | reserved own cents =>
    obtain rfl := Option.some.inj ho
    obtain ⟨-, refund, hf, -⟩ := h
    exact Table.lt_next_of_find? hf
  | submitted own =>
    obtain rfl := Option.some.inj ho
    obtain ⟨refund, hf, -⟩ := h
    exact Table.lt_next_of_find? hf
  | _ => cases ho

section Stages
variable {stages : List RefundStage} {i : Nat} {stage stage' : RefundStage}

theorem owns_set (h : stages[i]? = some stage) (j id : Nat) :
    Owns (stages.set i stage') j id ↔
      if j = i then stage'.openRefund = some id else Owns stages j id := by
  unfold Owns
  rw [Pool.getElem?_set_of_some h]
  by_cases hj : j = i <;> simp [hj]

/-- A request that opens no other row keeps the open rows apart. -/
theorem distinct_set (h : stages[i]? = some stage)
    (distinct : ∀ i j id, Owns stages i id → Owns stages j id → i = j)
    (fresh : ∀ id, stage'.openRefund = some id → ∀ j, Owns stages j id → j = i) (a b id : Nat)
    (ha : Owns (stages.set i stage') a id) (hb : Owns (stages.set i stage') b id) : a = b := by
  rw [owns_set h] at ha hb
  by_cases hai : a = i <;> by_cases hbi : b = i <;> simp only [hai, hbi, if_true, if_false] at ha hb
  · rw [hai, hbi]
  · rw [hai, fresh id ha b hb]
  · rw [hbi, fresh id hb a ha]
  · exact distinct a b id ha hb

theorem owns_of (h : stages[i]? = some stage) {id : Nat} (ho : stage.openRefund = some id) :
    Owns stages i id := by
  simp [Owns, h, ho]

end Stages

section Invariant
variable {before after : Ledger} {stages : List RefundStage} {i : Nat}
  {stage stage' : RefundStage}

/-- The stages of the other requests keep their rows when the step leaves those rows alone. -/
theorem backed_set (inv : CapacityInv paymentId before stages) (h : stages[i]? = some stage)
    (own : Backed paymentId after stage')
    (others : ∀ j id, j ≠ i → Owns stages j id →
      after.refunds.find? id = before.refunds.find? id) (j : Nat) (s : RefundStage)
    (hs : (stages.set i stage')[j]? = some s) : Backed paymentId after s := by
  rw [Pool.getElem?_set_of_some h] at hs
  by_cases hj : j = i
  · rw [if_pos hj] at hs
    exact Option.some.inj hs ▸ own
  · rw [if_neg hj] at hs
    exact backed_congr (fun id ho => others j id hj (owns_of hs ho)) (inv.backed j s hs)

theorem owns_lt_next (inv : CapacityInv paymentId before stages) {j id : Nat}
    (h : Owns stages j id) : id < before.refunds.next := by
  obtain ⟨s, hs, ho⟩ := Option.bind_eq_some_iff.mp h
  exact backed_lt_next (inv.backed j s hs) ho

/-- A request only rewrites its own row, so the rows of the others stay. -/
theorem updateRefund_others (inv : CapacityInv paymentId before stages)
    (h : stages[i]? = some stage) {id : Nat} (ho : stage.openRefund = some id)
    (patch : RefundPatch) (j k : Nat) (hj : j ≠ i) (hk : Owns stages j k) :
    (before.updateRefund id patch).2.refunds.find? k = before.refunds.find? k := by
  have : k ≠ id := fun e => hj (inv.distinct j i id (e ▸ hk) (owns_of h ho))
  exact Table.find?_modify_ne patch.apply_id this

/-- The row a request still has to write. -/
theorem exists_open_row (inv : CapacityInv paymentId before stages)
    (h : stages[i]? = some stage) {id : Nat} (ho : stage.openRefund = some id) :
    ∃ refund, before.refunds.find? id = some refund ∧ refund.paymentId = paymentId ∧
      refund.status = .pending := by
  have hb := inv.backed i stage h
  cases stage with
  | reserved own cents =>
    obtain rfl := Option.some.inj ho
    obtain ⟨-, refund, hf, hp, hs, -⟩ := hb
    exact ⟨refund, hf, hp, hs⟩
  | submitted own =>
    obtain rfl := Option.some.inj ho
    exact hb
  | _ => cases ho

theorem settle_reservedTotal (inv : CapacityInv paymentId before stages)
    (h : stages[i]? = some stage) {id : Nat} (ho : stage.openRefund = some id)
    {patch : RefundPatch} (hs : patch.status = some .pending ∨ patch.status = some .processed) :
    (before.updateRefund id patch).2.reservedTotal paymentId = before.reservedTotal paymentId := by
  obtain ⟨refund, hf, hp, hst⟩ := exists_open_row inv h ho
  rw [Ledger.reservedTotal_updateRefund hf]
  rcases hs with hs | hs <;>
    simp [Refund.reserved, Refund.HoldsCapacity, RefundPatch.apply, REFUND_CAPACITY_STATUSES,
      hp, hst, hs]

theorem fail_reservedTotal (inv : CapacityInv paymentId before stages) {id : Nat} {cents : Int}
    (h : stages[i]? = some (.reserved id cents)) {patch : RefundPatch}
    (hs : patch.status = some .failed) :
    (before.updateRefund id patch).2.reservedTotal paymentId =
      before.reservedTotal paymentId - cents := by
  obtain ⟨-, refund, hf, hp, hst, hc⟩ := inv.backed i _ h
  rw [Ledger.reservedTotal_updateRefund hf]
  simp [Refund.reserved, Refund.HoldsCapacity, RefundPatch.apply, REFUND_CAPACITY_STATUSES,
    hp, hst, hs, hc]

/-- One step of one request keeps the capacity invariant. -/
theorem capacity_step (inv : CapacityInv paymentId before stages) (h : stages[i]? = some stage)
    (step : RefundStep honest paymentId before stage after stage') :
    CapacityInv paymentId after (stages.set i stage') := by
  cases step with
  | quiet _ _ refunds gateway amounts =>
    rw [Pool.set_of_some h]
    refine ⟨fun amount ha => ?_, fun j s hs => ?_, inv.distinct⟩
    · rw [Ledger.reservedTotal_congr refunds]
      exact inv.withinAmount amount (amounts paymentId ▸ ha)
    · exact backed_congr (fun id _ => by rw [refunds]) (inv.backed j s hs)
  | reserve input amount _ own positive payment room refunds gateway amounts =>
    refine ⟨fun amount' ha => ?_, backed_set inv h ⟨positive, ?_⟩ ?_, distinct_set h inv.distinct ?_⟩
    · rw [amounts, payment] at ha
      obtain rfl := Option.some.inj ha
      rw [Ledger.reservedTotal_congr refunds, ← own, Ledger.reservedTotal_insertRefund, own]
      exact room
    · refine ⟨(before.insertRefund input).1, ?_, own, rfl, rfl⟩
      rw [refunds, Ledger.find?_insertRefund, if_pos rfl]
    · intro j id _ hj
      rw [refunds, Ledger.find?_insertRefund, if_neg (Nat.ne_of_lt (owns_lt_next inv hj))]
    · intro id ho j hj
      obtain rfl := Option.some.inj ho
      exact absurd (owns_lt_next inv hj) (Nat.lt_irrefl _)
  | send id cents transactionId outcome heard =>
    have refunds := Ledger.execute_refunds before transactionId cents outcome
    have amounts := Ledger.execute_amountOf before transactionId cents outcome paymentId
    have same : (answered id cents (Accepting outcome.answer)).openRefund = some id := by
      unfold answered
      split <;> rfl
    refine ⟨fun amount ha => ?_, backed_set inv h ?_ ?_, distinct_set h inv.distinct ?_⟩
    · rw [Ledger.reservedTotal_congr refunds]
      exact inv.withinAmount amount (amounts ▸ ha)
    · obtain ⟨positive, refund, hf, hp, hst, hc⟩ := inv.backed i _ h
      unfold answered
      split
      · exact ⟨refund, refunds ▸ hf, hp, hst⟩
      · exact ⟨positive, refund, refunds ▸ hf, hp, hst, hc⟩
    · intro j k _ _
      rw [refunds]
    · intro k hk j hj
      rw [same] at hk
      exact inv.distinct j i k hj (owns_of h hk)
  | settle id cents patch written _ own =>
    have ho : stage.openRefund = some id := by
      rcases own with rfl | rfl <;> rfl
    refine ⟨fun amount ha => ?_, backed_set inv h trivial (updateRefund_others inv h ho patch),
      distinct_set h inv.distinct (fun k hk => by cases hk)⟩
    rw [settle_reservedTotal inv h ho written]
    exact inv.withinAmount amount ha
  | fail id cents patch written =>
    refine ⟨fun amount ha => ?_, backed_set inv h trivial (updateRefund_others inv h rfl patch),
      distinct_set h inv.distinct (fun k hk => by cases hk)⟩
    rw [fail_reservedTotal inv h written]
    have bounded := inv.withinAmount amount ha
    have positive := (inv.backed i _ h).1
    omega
  | abandon =>
    exact ⟨inv.withinAmount, backed_set inv h trivial fun _ _ _ _ => rfl,
      distinct_set h inv.distinct (fun k hk => by cases hk)⟩

/-- A refund that has failed stays failed: no open request has its row. -/
theorem failed_step (inv : CapacityInv paymentId before stages) (h : stages[i]? = some stage)
    (step : RefundStep honest paymentId before stage after stage') {id : Nat} {refund : Refund}
    (hf : before.refunds.find? id = some refund) (failed : refund.status = .failed) :
    after.refunds.find? id = some refund := by
  have kept : ∀ own patch, stage.openRefund = some own →
      (before.updateRefund own patch).2.refunds.find? id = some refund := by
    intro own patch ho
    obtain ⟨row, hr, -, pending⟩ := exists_open_row inv h ho
    have other : id ≠ own := by
      rintro rfl
      obtain rfl := Option.some.inj (hf.symm.trans hr)
      rw [failed] at pending
      cases pending
    exact (Table.find?_modify_ne patch.apply_id other).trans hf
  cases step with
  | quiet _ _ refunds gateway amounts => rw [refunds, hf]
  | reserve input amount _ own positive payment room refunds gateway amounts =>
    rw [refunds, Ledger.find?_insertRefund, if_neg (Nat.ne_of_lt (Table.lt_next_of_find? hf)), hf]
  | send own cents transactionId outcome heard => rw [Ledger.execute_refunds, hf]
  | settle own cents patch written _ hs =>
    refine kept own patch ?_
    rcases hs with rfl | rfl <;> rfl
  | fail own cents patch written => exact kept own patch rfl
  | abandon => exact hf

/-- What the gateway has paid, and what it may still be asked to pay, is held by
refunds that count against the capacity. -/
def Covered (paymentId : Nat) (transactionId : String) (ledger : Ledger)
    (stages : List RefundStage) : Prop :=
  ledger.gatewayRefunded transactionId + (stages.map RefundStage.unsent).sum ≤
    ledger.reservedTotal paymentId

theorem paid_le_reserved {transactionId : String} {ledger : Ledger} {stages : List RefundStage}
    (inv : CapacityInv paymentId ledger stages)
    (covered : Covered paymentId transactionId ledger stages) :
    ledger.gatewayRefunded transactionId ≤ ledger.reservedTotal paymentId := by
  have nonneg : 0 ≤ (stages.map RefundStage.unsent).sum := by
    refine List.sum_nonneg fun x hx => ?_
    obtain ⟨stage, hs, rfl⟩ := List.mem_map.mp hx
    obtain ⟨i, hi⟩ := List.mem_iff_getElem?.mp hs
    exact unsent_nonneg (inv.backed i stage hi)
  unfold Covered at covered
  omega

/-- As long as the gateway is heard whenever it pays, its payments stay covered. -/
theorem covered_step {transactionId : String} (inv : CapacityInv paymentId before stages)
    (covered : Covered paymentId transactionId before stages) (h : stages[i]? = some stage)
    (step : RefundStep (fun outcome => outcome.executed → Accepting outcome.answer)
      paymentId before stage after stage') :
    Covered paymentId transactionId after (stages.set i stage') := by
  unfold Covered at covered ⊢
  rw [Pool.sum_map_set _ h]
  cases step with
  | quiet _ _ refunds gateway amounts =>
    rw [Ledger.reservedTotal_congr refunds]
    simp only [Ledger.gatewayRefunded, gateway] at covered ⊢
    omega
  | reserve input amount _ own positive payment room refunds gateway amounts =>
    rw [Ledger.reservedTotal_congr refunds, ← own, Ledger.reservedTotal_insertRefund, own]
    simp only [Ledger.gatewayRefunded, gateway, unsent_idle, unsent_reserved] at covered ⊢
    omega
  | send id cents own outcome heard =>
    have positive := (inv.backed i _ h).1
    rw [Ledger.gatewayRefunded_execute, Ledger.reservedTotal_congr (Ledger.execute_refunds ..)]
    by_cases ha : Accepting outcome.answer
    · simp only [answered, ha, if_true, unsent_reserved, unsent_submitted]
      split <;> omega
    · have lost : ¬ (outcome.executed = true ∧ own = transactionId) := fun e => ha (heard e.1)
      simp only [answered, ha, if_false, unsent_reserved, if_neg lost]
      omega
  | settle id cents patch written _ own =>
    have ho : stage.openRefund = some id := by
      rcases own with rfl | rfl <;> rfl
    have nonneg := unsent_nonneg (inv.backed i _ h)
    rw [settle_reservedTotal inv h ho written]
    simp only [Ledger.gatewayRefunded, Ledger.updateRefund, unsent_done] at covered ⊢
    omega
  | fail id cents patch written =>
    rw [fail_reservedTotal inv h written]
    simp only [Ledger.gatewayRefunded, Ledger.updateRefund, unsent_reserved, unsent_done] at covered ⊢
    omega
  | abandon =>
    have nonneg := unsent_nonneg (inv.backed i _ h)
    simp only [unsent_done]
    omega

end Invariant

/-- Any number of refund requests of one payment, on one ledger. -/
def refundPool (platform : Platform) (config : PaymobConfig) (paymentId : Nat) (ledger : Ledger)
    (requests : List (Rat × Option String)) :
    Pool Ledger PaymentsOp PaymentsOp.Result (Except Failure (Option Refund)) :=
  ⟨ledger, requests.map fun r => (createRefund platform config paymentId r.1 r.2).run⟩

section Runs
variable {platform : Platform} {config : PaymobConfig} {ledger : Ledger}
  {requests : List (Rat × Option String)}

theorem refundPool_follow :
    Pool.Follow (protocol paymentId) (List.replicate requests.length idle)
      (refundPool platform config paymentId ledger requests) := by
  have each : ∀ p ∈ (refundPool platform config paymentId ledger requests).threads,
      (protocol paymentId).Follows idle p := by
    intro p hp
    obtain ⟨r, -, rfl⟩ := List.mem_map.mp hp
    exact createRefund_follows r.1 r.2
  have follow := Pool.follow_replicate each ledger
  rwa [refundPool, List.length_map] at follow

theorem capacityInv_start
    (start : ∀ amount, ledger.amountOf paymentId = some amount →
      ledger.reservedTotal paymentId ≤ amount) (n : Nat) :
    CapacityInv paymentId ledger (List.replicate n idle) := by
  have all : ∀ (i : Nat) stage, (List.replicate n idle)[i]? = some stage → stage = idle := by
    intro i stage h
    exact List.eq_of_mem_replicate (List.mem_of_getElem? h)
  refine ⟨start, fun i stage h => ?_, fun i j id h _ => ?_⟩
  · rw [all i stage h]
    trivial
  · obtain ⟨stage, hs, ho⟩ := Option.bind_eq_some_iff.mp h
    rw [all i stage hs] at ho
    cases ho

theorem anyStep {choice : Choice} {before : Ledger} {stage : RefundStage} {op : PaymentsOp}
    (ok : allowed paymentId stage op) :
    RefundStep (fun _ => True) paymentId before stage (exec schema choice before op).2
      (next stage op (exec schema choice before op).1) :=
  step_of_exec ok fun _ _ _ _ => trivial

theorem capacity_preserved :
    Pool.Preserves (exec schema) (protocol paymentId) (fun _ _ _ _ => True)
      (CapacityInv paymentId) := by
  intro choice before stages i stage op h inv allowed _
  exact capacity_step inv h (anyStep allowed)

theorem failed_preserved {id : Nat} {refund : Refund} (failed : refund.status = .failed) :
    Pool.Preserves (exec schema) (protocol paymentId) (fun _ _ _ _ => True)
      (fun after stages => CapacityInv paymentId after stages ∧
        after.refunds.find? id = some refund) := by
  intro choice before stages i stage op h inv allowed _
  exact ⟨capacity_step inv.1 h (anyStep allowed), failed_step inv.1 h (anyStep allowed) inv.2 failed⟩

theorem capacity_run
    (start : ∀ amount, ledger.amountOf paymentId = some amount →
      ledger.reservedTotal paymentId ≤ amount) (schedule : List (Nat × Choice)) :
    CapacityInv paymentId
        ((refundPool platform config paymentId ledger requests).run (exec schema) schedule).state
        (Pool.recallAll (exec schema) (protocol paymentId) (List.replicate requests.length idle)
          (refundPool platform config paymentId ledger requests) schedule) ∧
      Pool.Follow (protocol paymentId)
        (Pool.recallAll (exec schema) (protocol paymentId) (List.replicate requests.length idle)
          (refundPool platform config paymentId ledger requests) schedule)
        ((refundPool platform config paymentId ledger requests).run (exec schema) schedule) :=
  Pool.run_invariant_always capacity_preserved (capacityInv_start start _) refundPool_follow
    schedule

/-- However many refund requests of a payment run against each other, whatever the
gateway does, the refunds that hold capacity never exceed the payment's amount, and
a refund that has failed stays failed. -/
theorem refundCapacity_kept (schema : TransactionsSchema) (platform : Platform)
    (config : PaymobConfig) (paymentId : Nat) (ledger : Ledger)
    (requests : List (Rat × Option String))
    (start : ∀ amount, ledger.amountOf paymentId = some amount →
      ledger.reservedTotal paymentId ≤ amount) (schedule : List (Nat × Choice)) :
    let pool := refundPool platform config paymentId ledger requests
    let reached := (pool.run (exec schema) schedule).state
    (∀ amount, reached.amountOf paymentId = some amount →
      reached.reservedTotal paymentId ≤ amount) ∧
    ∀ later id refund, reached.refunds.find? id = some refund → refund.status = .failed →
      (pool.run (exec schema) (schedule ++ later)).state.refunds.find? id = some refund := by
  intro pool reached
  obtain ⟨inv, follow⟩ := capacity_run start schedule
  refine ⟨inv.withinAmount, fun later id refund hf failed => ?_⟩
  rw [Pool.run_append]
  exact (Pool.run_invariant_always (failed_preserved failed) ⟨inv, hf⟩ follow later).1.2

theorem single_bounded (status : PaymentStatus) (transactionId : Option String) (amount : Int)
    (h : (Ledger.single status transactionId).amountOf 0 = some amount) :
    (Ledger.single status transactionId).reservedTotal 0 ≤ amount := by
  obtain rfl : 100 = amount := Option.some.inj h
  exact (by decide : (0 : Int) ≤ 100)

/-- Two refunds that do not fit together, their turns alternating. -/
theorem refundCapacity_kept_two :
    let pool := refundPool .plain .default 0 (Ledger.single .completed (some "7"))
      [(100, none), (60, none)]
    let reached := (pool.run (exec paymentTransactionsP)
      [(0, .quiet), (1, .quiet), (1, .quiet), (0, .quiet)]).state
    (∀ amount, reached.amountOf 0 = some amount → reached.reservedTotal 0 ≤ amount) ∧
    ∀ later id refund, reached.refunds.find? id = some refund → refund.status = .failed →
      (pool.run (exec paymentTransactionsP)
        ([(0, .quiet), (1, .quiet), (1, .quiet), (0, .quiet)] ++ later)).state.refunds.find? id =
          some refund :=
  refundCapacity_kept paymentTransactionsP .plain .default 0 _ _ (single_bounded _ _) _

/-- The gateway is heard: it answers every attempt it executes, and the answer says so. -/
def GatewayHeard (choice : Choice) (_ : Ledger) (_ : RefundStage) (op : PaymentsOp) : Prop :=
  match op with
  | .refundAttempt _ _ =>
    choice.fault = none → choice.attempt.executed → Accepting choice.attempt.answer
  | _ => True

instance (choice : Choice) (ledger : Ledger) (stage : RefundStage) (op : PaymentsOp) :
    Decidable (GatewayHeard choice ledger stage op) :=
  match op with
  | .refundAttempt _ _ => inferInstanceAs (Decidable (_ → _ → _))
  | .findById _ | .findByOrderId _ | .findByTransactionId _ | .update _ _ | .createTransaction _
  | .updateRefund _ _ | .reserveRefundCapacity _ | .reconcileRefundCapacity _
  | .invalidateKey _ _ | .invalidateTags _ | .emit _ | .getAuthToken => .isTrue trivial

theorem covered_preserved (transactionId : String) :
    Pool.Preserves (exec schema) (protocol paymentId) GatewayHeard
      (fun after stages => CapacityInv paymentId after stages ∧
        Covered paymentId transactionId after stages) := by
  intro choice before stages i stage op h inv allowed heard
  refine ⟨capacity_step inv.1 h (anyStep allowed), covered_step inv.1 inv.2 h ?_⟩
  refine step_of_exec allowed fun _ _ hop hf => ?_
  subst hop
  exact heard hf

/-- As long as the gateway is heard whenever it pays, it never pays back more than
the refunds that hold capacity, nor more than was captured. -/
theorem gatewayRefunded_covered (schema : TransactionsSchema) (platform : Platform)
    (config : PaymobConfig) (paymentId : Nat) (transactionId : String) (ledger : Ledger)
    (requests : List (Rat × Option String))
    (bounded : ∀ amount, ledger.amountOf paymentId = some amount →
      ledger.reservedTotal paymentId ≤ amount)
    (covered : ledger.gatewayRefunded transactionId ≤ ledger.reservedTotal paymentId)
    (schedule : List (Nat × Choice))
    (heard : Pool.Meets (exec schema) (protocol paymentId) GatewayHeard schedule
      (List.replicate requests.length idle)
      (refundPool platform config paymentId ledger requests)) :
    let pool := refundPool platform config paymentId ledger requests
    let reached := (pool.run (exec schema) schedule).state
    reached.gatewayRefunded transactionId ≤ reached.reservedTotal paymentId ∧
    ∀ amount, reached.amountOf paymentId = some amount →
      reached.gatewayRefunded transactionId ≤ amount := by
  intro pool reached
  have start : Covered paymentId transactionId ledger (List.replicate requests.length idle) := by
    simpa [Covered] using covered
  obtain ⟨⟨inv, paid⟩, -⟩ := Pool.run_invariant (covered_preserved transactionId)
    ⟨capacityInv_start bounded _, start⟩ refundPool_follow heard
  have within := paid_le_reserved inv paid
  exact ⟨within, fun amount ha => within.trans (inv.withinAmount amount ha)⟩

/-- Admission, a token, a first attempt whose answer is lost, and a second one. -/
def retriedAttempt (executed : Bool) : List (Nat × Choice) :=
  List.replicate 5 (0, .quiet) ++
  [(0, .token),
   (0, .attempted executed (.error (.fetchTimeout "external-call:paymob" 5000))),
   (0, .attempted true (.ok { id := "31", success := some true }))]

/-- The first attempt did not reach the gateway. -/
theorem gatewayRefunded_covered_retried :
    let pool := refundPool .plain .default 0 (Ledger.single .completed (some "7")) [(100, none)]
    let reached := (pool.run (exec paymentTransactionsP) (retriedAttempt false)).state
    reached.gatewayRefunded "7" ≤ reached.reservedTotal 0 ∧
    ∀ amount, reached.amountOf 0 = some amount → reached.gatewayRefunded "7" ≤ amount :=
  gatewayRefunded_covered paymentTransactionsP .plain .default 0 "7" _ _ (single_bounded _ _)
    (by decide) _ (by decide)

/-- The gateway executed the attempt whose answer was lost: 200 is paid back of a
capture of 100, and the ledger knows of 100. -/
theorem gatewayRefunded_exceeds :
    let pool := refundPool .plain .default 0 (Ledger.single .completed (some "7")) [(100, none)]
    let reached := (pool.run (exec paymentTransactionsP) (retriedAttempt true)).state
    reached.amountOf 0 = some 100 ∧ reached.reservedTotal 0 = 100 ∧
      ¬ reached.gatewayRefunded "7" ≤ 100 := by
  decide

end Runs

end Payments
