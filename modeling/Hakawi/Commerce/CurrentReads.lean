import Hakawi.Commerce.Retirement

/-!
# What reads of payments and rentals answer

After each operation of a run in which nothing happens to a cached row that nobody retires, a
payment or a rental is found as it is.
-/

namespace Commerce
open Html Common Effects Caching Payments Rentals Library Store

section Checkouts
open PaymentsService
variable {schema : TransactionsSchema} {texts : RowTexts} {platform : Platform} {world : World}
  {gone lost : Nat → Prop} {id : Nat} {α : Type}

theorem wpE_free_query {statement : Statement} (fresh : Fresh texts gone lost world)
    (payments : statement.writesPayment = none) (rentals : statement.writesRental = none) :
    wpE (retiring schema texts) (query statement) (fun _ after => Fresh texts gone lost after)
      world :=
  wpE_freely ⟨free_query payments rentals, fun _ => trivial⟩ fresh

theorem wpE_free_emit (fresh : Fresh texts gone lost world) (event : Event) :
    wpE (retiring schema texts) (emit event) (fun _ after => Fresh texts gone lost after) world :=
  wpE_freely ⟨free_emit event, fun _ => trivial⟩ fresh

theorem wpE_free_now (fresh : Fresh texts gone lost world) :
    wpE (retiring schema texts) now (fun _ after => Fresh texts gone lost after) world :=
  wpE_freely ⟨⟨fun _ => (by simp), fun _ => (by simp), fun _ => by simp⟩, fun _ => trivial⟩ fresh

theorem wpE_insertPayment (fresh : Fresh texts Nobody Nobody world) (input : CreatePayment) :
    wpE (retiring schema texts) (insertPayment platform input)
      (fun _ after => Fresh texts Nobody Nobody after) world := by
  refine wpE_liftM_bind _ (fun _ _ => fresh) fun currency _ => ?_
  refine wpE_liftM_bind _ (fun _ _ => fresh) fun amount _ => ?_
  refine wpE_seq retiring_monotone (wpE_free_query fresh rfl rfl) (fun _ _ fresh => fresh) ?_
  intro payment after fresh
  refine wpE_seq retiring_monotone (wpE_free_emit fresh _) (fun _ _ fresh => fresh) ?_
  exact fun _ last fresh => fresh

/-- A payment is updated, and its key dropped. -/
theorem wpE_updates {β : Type} {patch : PaymentPatch} {rest : Option Payment → Method β}
    (fresh : Fresh texts Nobody Nobody world)
    (goes : ∀ updated after, Fresh texts Nobody Nobody after →
      wpE (retiring schema texts) (rest updated)
        (fun _ after => Fresh texts Nobody Nobody after) after) :
    wpE (retiring schema texts) (do
      let updated ← query (.updatePayment id patch)
      invalidatePaymentCache texts id
      rest updated) (fun _ after => Fresh texts Nobody Nobody after) world := by
  refine wpE_seq retiring_monotone (wpE_writePayment _ fresh rfl rfl) (fun e _ ends => ends.2 e rfl) ?_
  rintro updated after ⟨owing, -⟩
  refine wpE_seq retiring_monotone (wpE_payments (wpE_dropsPayment owing)) (fun _ _ fresh => fresh) ?_
  exact fun _ last fresh => goes updated last fresh

theorem wpE_registerPaymobCheckout (fresh : Fresh texts Nobody Nobody world) (payment : Payment)
    (amountCents : Int) (currency : String) :
    wpE (retiring schema texts) (registerPaymobCheckout texts payment amountCents currency)
      (fun _ after => Fresh texts Nobody Nobody after) world := by
  have asks : OnlyE Call.Free (createCheckout amountCents currency payment.id) :=
    ⟨⟨fun _ => (by simp), fun _ => (by simp), fun _ => by simp⟩, fun _ => trivial⟩
  have fails (e : Failure) (after : World) (fresh : Fresh texts Nobody Nobody after) :
      wpE (retiring schema texts) (do
        failPaymentAfterGatewayError texts payment.id
        throw (checkoutUnavailable e) : Method String)
        (fun _ after => Fresh texts Nobody Nobody after) after := by
    have failed : wpE (retiring schema texts) (failPaymentAfterGatewayError texts payment.id)
        (fun _ after => Fresh texts Nobody Nobody after) after :=
      wpE_updates fresh fun _ last fresh => wpE_free_emit fresh _
    exact wpE_seq retiring_monotone failed (fun _ _ fresh => fresh) fun _ _ fresh => fresh
  refine wpE_seq retiring_monotone (P := fun _ after => Fresh texts Nobody Nobody after) ?_
    (fun _ _ fresh => fresh) fun orderId after fresh => ?_
  · rw [wpE_tryCatch]
    refine wpE_mono retiring_monotone (fun result after fresh => ?_) (wpE_freely asks fresh)
    cases result with
    | ok orderId => exact fresh
    | error e => exact fails e after fresh
  · exact wpE_updates fresh fun _ last fresh => fresh

theorem wpE_createPayment (fresh : Fresh texts Nobody Nobody world) (input : CreatePayment)
    (initializeGateway : Bool) :
    wpE (retiring schema texts) (createPayment texts platform input initializeGateway)
      (fun _ after => Fresh texts Nobody Nobody after) world := by
  refine wpE_seq retiring_monotone (wpE_insertPayment fresh input) (fun _ _ fresh => fresh) ?_
  intro payment after fresh
  simp only [wpE_ite]
  split
  · exact fresh
  split
  · exact fresh
  exact wpE_seq retiring_monotone (wpE_registerPaymobCheckout fresh _ _ _) (fun _ _ fresh => fresh)
    fun _ _ fresh => fresh

theorem wpE_paymobInitializePayment (fresh : Fresh texts Nobody Nobody world) (userId : String)
    (amount : Rat) (currency : String) (metadata : Json) :
    wpE (retiring schema texts)
      (paymobInitializePayment texts platform userId amount currency metadata)
      (fun _ after => Fresh texts Nobody Nobody after) world := by
  refine wpE_seq retiring_monotone (wpE_insertPayment fresh _) (fun _ _ fresh => fresh) ?_
  intro payment after fresh
  refine wpE_liftM_bind _ (fun _ _ => fresh) fun validatedCurrency _ => ?_
  exact wpE_seq retiring_monotone (wpE_registerPaymobCheckout fresh _ _ _) (fun _ _ fresh => fresh)
    fun _ _ fresh => fresh

end Checkouts

section Rentals
open RentalsService RentalsEventHandler
variable {schema : TransactionsSchema} {texts : RowTexts} {platform : Platform} {world : World}
  {gone lost : Nat → Prop} {id : Nat} {α : Type}

theorem wpE_dropsRental (fresh : Fresh texts Nobody (· = id) world) :
    wpE (retiring schema texts) (invalidateRentalCache texts id)
      (fun _ after => Fresh texts Nobody Nobody after) world := by
  refine wpE_mono retiring_monotone ?_ (wpE_invalidateKey (c := rentalCache texts)
    available_retires fresh.rentals fresh.payments Rental id [RENTALS_CACHE_TAG])
  rintro result after ⟨dropped, same⟩
  exact ⟨same, dropped.weaken fun k left => left.2 left.1⟩

/-- A rental is updated, and its key dropped. -/
theorem wpE_updatesRental {β : Type} {patch : RentalPatch} {rest : Option Rental → Method β}
    (fresh : Fresh texts Nobody Nobody world)
    (goes : ∀ updated after, Fresh texts Nobody Nobody after →
      wpE (retiring schema texts) (rest updated)
        (fun _ after => Fresh texts Nobody Nobody after) after) :
    wpE (retiring schema texts) (do
      let updated ← query (.updateRental id patch)
      invalidateRentalCache texts id
      rest updated) (fun _ after => Fresh texts Nobody Nobody after) world := by
  refine wpE_seq retiring_monotone (wpE_writeRental fresh) (fun e _ ends => ends.2 e rfl) ?_
  rintro updated after ⟨owing, -⟩
  refine wpE_seq retiring_monotone (wpE_dropsRental owing) (fun _ _ fresh => fresh) ?_
  exact fun _ last fresh => goes updated last fresh

theorem wpE_expire (fresh : Fresh texts Nobody Nobody world) (rental : Rental) :
    wpE (retiring schema texts) (expire texts rental)
      (fun _ after => Fresh texts Nobody Nobody after) world :=
  wpE_updatesRental fresh fun _ _ fresh => wpE_free_emit fresh _

theorem wpE_extendRental (fresh : Fresh texts Nobody Nobody world) (extensionDays : Int)
    (userId : String) (paymentMethod : Option String) :
    wpE (retiring schema texts)
      (extendRental texts platform id extensionDays userId paymentMethod)
      (fun _ after => Fresh texts Nobody Nobody after) world := by
  refine wpE_seq retiring_monotone (wpE_free_query fresh rfl rfl) (fun _ _ fresh => fresh) ?_
  intro found after fresh
  refine wpE_liftM_bind _ (fun _ _ => fresh) fun rental _ => ?_
  exact wpE_paymobInitializePayment fresh _ _ _ _

theorem wpE_returnRental (fresh : Fresh texts Nobody Nobody world) (userId : String) :
    wpE (retiring schema texts) (returnRental texts id userId)
      (fun _ after => Fresh texts Nobody Nobody after) world := by
  refine wpE_seq retiring_monotone (wpE_free_query fresh rfl rfl) (fun _ _ fresh => fresh) ?_
  intro found after fresh
  refine wpE_liftM_bind _ (fun _ _ => fresh) fun rental _ => ?_
  rw [wpE_ite]
  split
  · exact fresh
  refine wpE_seq retiring_monotone (wpE_free_now fresh) (fun _ _ fresh => fresh) ?_
  intro returnedAt later fresh
  exact wpE_updatesRental fresh fun _ _ fresh =>
    wpE_seq retiring_monotone (wpE_free_emit fresh _) (fun _ _ fresh => fresh)
      fun _ _ fresh => fresh

theorem wpE_expireAll (rentals : List Rental) {world : World}
    (fresh : Fresh texts Nobody Nobody world) :
    wpE (retiring schema texts) (forM rentals (expire texts))
      (fun _ after => Fresh texts Nobody Nobody after) world := by
  induction rentals generalizing world with
  | nil => exact fresh
  | cons rental rest ih =>
    rw [List.forM_cons]
    refine wpE_seq retiring_monotone (wpE_expire fresh rental) (fun _ _ fresh => fresh) ?_
    exact fun _ after fresh => ih fresh

theorem wpE_checkAndExpireOverdue (fresh : Fresh texts Nobody Nobody world) :
    wpE (retiring schema texts) (checkAndExpireOverdue texts)
      (fun _ after => Fresh texts Nobody Nobody after) world := by
  refine wpE_seq retiring_monotone (wpE_free_now fresh) (fun _ _ fresh => fresh) ?_
  intro time after fresh
  refine wpE_seq retiring_monotone (wpE_free_query fresh rfl rfl) (fun _ _ fresh => fresh) ?_
  exact fun overdueRentals later fresh => wpE_expireAll overdueRentals fresh

theorem wpE_applyExtension (fresh : Fresh texts Nobody Nobody world) (payment : Payment) :
    wpE (retiring schema texts) (RentalsEventHandler.applyExtension payment)
      (fun _ after => Fresh texts Nobody Nobody after) world := by
  rw [RentalsEventHandler.applyExtension]
  split
  · rename_i rentalId extensionDays _ _
    refine wpE_seq retiring_monotone (wpE_free_query fresh rfl rfl) (fun _ _ fresh => fresh) ?_
    intro found after fresh
    cases found with
    | none => exact fresh
    | some rental =>
      simp only [wpE_ite]
      split
      · exact fresh
      refine wpE_seq retiring_monotone (wpE_free_query fresh rfl rfl) (fun _ _ fresh => fresh) ?_
      intro _ later fresh
      refine wpE_seq retiring_monotone (wpE_extends fresh (by simp)) (fun _ _ fresh => fresh) ?_
      exact fun _ last fresh => wpE_free_emit fresh _
  · exact fresh

theorem wpE_grantRental (fresh : Fresh texts Nobody Nobody world) (payment : Payment) :
    wpE (retiring schema texts) (RentalsEventHandler.grantRental payment)
      (fun _ after => Fresh texts Nobody Nobody after) world := by
  rw [RentalsEventHandler.grantRental]
  split
  · refine wpE_seq retiring_monotone (wpE_free_query fresh rfl rfl) (fun _ _ fresh => fresh) ?_
    intro existing after fresh
    rw [wpE_ite]
    split
    · exact fresh
    refine wpE_seq retiring_monotone (wpE_free_now fresh) (fun _ _ fresh => fresh) ?_
    intro time later fresh
    refine wpE_seq retiring_monotone (wpE_free_query fresh rfl rfl) (fun _ _ fresh => fresh) ?_
    exact fun rental last fresh => wpE_free_emit fresh _
  · exact fresh

theorem wpE_rentalsPaymentCompleted (fresh : Fresh texts Nobody Nobody world) (paymentId : Nat) :
    wpE (retiring schema texts) (RentalsEventHandler.handlePaymentCompleted paymentId)
      (fun _ after => Fresh texts Nobody Nobody after) world := by
  refine wpE_seq retiring_monotone (wpE_free_query fresh rfl rfl) (fun _ _ fresh => fresh) ?_
  intro found after fresh
  cases found with
  | none => exact fresh
  | some payment =>
    simp only [wpE_ite]
    split
    · exact wpE_applyExtension fresh payment
    split
    · exact wpE_grantRental fresh payment
    · exact fresh

theorem wpE_revokeRental (fresh : Fresh texts Nobody Nobody world) (payment : Payment) :
    wpE (retiring schema texts) (RentalsEventHandler.revokeRental texts payment)
      (fun _ after => Fresh texts Nobody Nobody after) world := by
  rw [RentalsEventHandler.revokeRental]
  split
  · exact fresh
  refine wpE_seq retiring_monotone (wpE_free_query fresh rfl rfl) (fun _ _ fresh => fresh) ?_
  intro found after fresh
  cases found with
  | none => exact fresh
  | some rental =>
    simp only [wpE_ite]
    split
    · exact fresh
    · exact wpE_expire fresh rental

theorem wpE_rentalsRefundCompleted (fresh : Fresh texts Nobody Nobody world) (paymentId : Nat) :
    wpE (retiring schema texts) (RentalsEventHandler.handleRefundCompleted texts paymentId)
      (fun _ after => Fresh texts Nobody Nobody after) world := by
  refine wpE_seq retiring_monotone (wpE_free_query fresh rfl rfl) (fun _ _ fresh => fresh) ?_
  intro found after fresh
  cases found with
  | none => exact fresh
  | some payment =>
    simp only [wpE_ite]
    split
    · exact wpE_revokeRental fresh payment
    · exact fresh

end Rentals

section Reads
variable {schema : TransactionsSchema} {texts : RowTexts} {ok : Choice → World → Call → Prop}
  {world : World} {id : Nat}

theorem exec_findPayment (schema : TransactionsSchema) (choice : Choice) (world : World)
    (id : Nat) :
    (World.exec schema choice world (.query (.findPayment id))).2.primary = world.primary ∧
      ((World.exec schema choice world (.query (.findPayment id))).1 =
        .ok (world.primary.ledger.findById id) ∨ choice.fault ≠ none ∧
          ∃ e, (World.exec schema choice world (.query (.findPayment id))).1 = .error e) := by
  have responds (world : World) : world.respond schema choice (.findPayment id) =
      (.ok (world.primary.ledger.findById id), world.primary) := by
    rw [World.respond]
    split
    · rfl
    · exact if_neg (by rintro ⟨⟩)
  rw [World.exec]
  cases choice.fault with
  | none =>
    simp only [World.perform, responds]
    exact ⟨trivial, Or.inl trivial⟩
  | some fault =>
    simp only [World.perform, responds]
    exact ⟨by split <;> rfl, Or.inr ⟨(by simp), fault.error, rfl⟩⟩

theorem exec_findRental (schema : TransactionsSchema) {choice : Choice} (shown : ∀ replica ∈ choice.served,
      replica.rentals.findById id = world.primary.rentals.findById id) :
    (World.exec schema choice world (.query (.findRental id))).2.primary = world.primary ∧
      ((World.exec schema choice world (.query (.findRental id))).1 =
        .ok (world.primary.rentals.findById id) ∨ choice.fault ≠ none ∧
          ∃ e, (World.exec schema choice world (.query (.findRental id))).1 = .error e) := by
  have responds (clock : Int) : { world with clock }.respond schema choice (.findRental id) =
      (.ok (world.primary.rentals.findById id), world.primary) := by
    rw [World.respond]
    cases served : choice.served with
    | none => rfl
    | some replica =>
      have routed : (Statement.findRental id).Routed := rfl
      simp only [if_pos routed]
      exact congrArg (fun row => (Except.ok row, world.primary)) (shown replica served)
  rw [World.exec]
  cases choice.fault with
  | none =>
    simp only [World.perform, responds]
    exact ⟨trivial, Or.inl trivial⟩
  | some fault =>
    simp only [World.perform, responds]
    exact ⟨by split <;> rfl, Or.inr ⟨(by simp), fault.error, rfl⟩⟩

theorem visibleRental_eq_ok {found : Option Rental} {userId : Option String} {rental : Rental}
    (visible : RentalsService.visibleRental found userId = .ok rental) :
    found = some rental ∧ rental.deletedAt = none := by
  unfold RentalsService.visibleRental at visible
  split at visible
  · cases visible
  · rename_i row
    split at visible
    · cases visible
    rename_i alive
    split at visible <;> cases visible
    exact ⟨rfl, by simpa using alive⟩

/-- What a read loads is the row, and it changes nothing. -/
structure Loads {α : Type} (c : RowCache α) (texts : RowTexts) (world : World) (id : Nat)
    (answer : Except Failure α) (calm : Prop) (result : Except Failure α) (after : World) :
    Prop where
  fresh : Fresh texts Nobody Nobody after
  primary : after.primary = world.primary
  answers : calm → result = answer
  current : ∀ row, result = .ok row → c.Current world.primary id row

theorem wpE_loadPayment (fresh : Fresh texts Nobody Nobody world) :
    wpE (Program.assuming (World.exec schema) ok) (PaymentsService.loadPayment id)
      (Loads (paymentCache texts) texts world id (existingPayment (world.primary.ledger.findById id))
        (∀ choice, ok choice world (.query (.findPayment id)) → choice.fault = none)) world := by
  intro choice chosen
  have kept : Fresh texts Nobody Nobody
      (World.exec schema choice world (.query (.findPayment id))).2 := fresh.free (free_query rfl rfl)
  obtain ⟨same, answered⟩ := exec_findPayment schema choice world id
  generalize World.exec schema choice world (.query (.findPayment id)) = ended at kept same answered
  obtain ⟨result, after⟩ := ended
  obtain rfl | ⟨failed, e, rfl⟩ := answered
  · refine ⟨kept, same, fun _ => rfl, fun payment returned => ?_⟩
    exact existingPayment_eq_ok.mp returned
  · refine ⟨kept, same, fun calm => absurd (calm choice chosen) failed, fun payment returned => ?_⟩
    cases returned

theorem wpE_loadRental (fresh : Fresh texts Nobody Nobody world) (userId : Option String)
    (shown : ∀ choice, ok choice world (.query (.findRental id)) → ∀ replica ∈ choice.served,
      replica.rentals.findById id = world.primary.rentals.findById id) :
    wpE (Program.assuming (World.exec schema) ok) (RentalsService.loadRental id userId)
      (Loads (rentalCache texts) texts world id
        (RentalsService.visibleRental (world.primary.rentals.findById id) userId)
        (∀ choice, ok choice world (.query (.findRental id)) → choice.fault = none)) world := by
  intro choice chosen
  have kept : Fresh texts Nobody Nobody
      (World.exec schema choice world (.query (.findRental id))).2 := fresh.free (free_query rfl rfl)
  obtain ⟨same, answered⟩ := exec_findRental schema (shown choice chosen)
  generalize World.exec schema choice world (.query (.findRental id)) = ended at kept same answered
  obtain ⟨result, after⟩ := ended
  obtain rfl | ⟨failed, e, rfl⟩ := answered
  · refine ⟨kept, same, fun _ => rfl, fun rental returned => ?_⟩
    exact visibleRental_eq_ok returned
  · refine ⟨kept, same, fun calm => absurd (calm choice chosen) failed, fun rental returned => ?_⟩
    cases returned

/-- A payment is found as it is. -/
theorem wpE_findPayment (available : Available ok) (fresh : Fresh texts Nobody Nobody world) :
    wpE (Program.assuming (World.exec schema) ok) (PaymentsService.findById texts id)
      (fun result after => Fresh texts Nobody Nobody after ∧
        ((∀ choice world, ok choice world (.query (.findPayment id)) → choice.fault = none) →
          result = existingPayment (world.primary.ledger.findById id))) world := by
  have finds : wpE (Program.assuming (World.exec schema) ok) (PaymentsService.findById texts id) _
      world := wpE_getOrSet (c := paymentCache texts) (d := rentalCache texts) available
    (payment_key_ne texts) fresh.payments fresh.rentals
    (by decide : 0 < PAYMENT_CACHE_TTL_SECONDS) (PaymentsService.loadPayment id)
    (P := fun result =>
      (∀ choice world, ok choice world (.query (.findPayment id)) → choice.fault = none) →
        result = existingPayment (world.primary.ledger.findById id))
    (fun payment current _ => (existingPayment_eq_ok.mpr current).symm)
    fun between sound other same => by
      refine wpE_mono (Program.assuming_monotone _ _) (fun result after loads => ?_)
        (wpE_loadPayment ⟨sound, other⟩)
      rw [same] at loads
      exact ⟨loads.fresh.payments, loads.fresh.rentals, loads.primary.trans same,
        fun calm => loads.answers fun choice chosen => calm choice between chosen,
        fun payment returned => same ▸ loads.current payment returned⟩
  exact wpE_mono (Program.assuming_monotone _ _)
    (fun result after ends => ⟨⟨ends.1, ends.2.1⟩, ends.2.2⟩) finds

/-- The check that comes after a rental is found. -/
theorem visibleRental_alive {rental : Rental} (alive : rental.deletedAt = none)
    (userId : Option String) : RentalsService.visibleRental (some rental) userId =
      if ∃ reader ∈ userId.filter (· ≠ ""), rental.userId ≠ reader then
        .error (.forbidden "You do not have access to this rental")
      else .ok rental := by
  have present : ¬ rental.deletedAt.isSome = true := by simp [alive]
  exact if_neg present

/-- What is loaded of a rental, or the reason why it is not. -/
structure Found (db : Database) (id : Nat) (userId : Option String)
    (result : Except Failure Rental) : Prop where
  found : ∀ rental, result = .ok rental → db.rentals.findById id = some rental ∧
    rental.deletedAt = none
  refused : ∀ e, result = .error e →
    RentalsService.visibleRental (db.rentals.findById id) userId = .error e

/-- A rental is found as it is. -/
theorem wpE_findRental (available : Available ok) (fresh : Fresh texts Nobody Nobody world)
    (userId : Option String)
    (shown : ∀ choice between, between.primary = world.primary →
      ok choice between (.query (.findRental id)) → ∀ replica ∈ choice.served,
        replica.rentals.findById id = world.primary.rentals.findById id) :
    wpE (Program.assuming (World.exec schema) ok) (RentalsService.findById texts id userId)
      (fun result after => Fresh texts Nobody Nobody after ∧
        ((∀ choice world, ok choice world (.query (.findRental id)) → choice.fault = none) →
          result = RentalsService.visibleRental (world.primary.rentals.findById id) userId))
      world := by
  have finds : wpE (Program.assuming (World.exec schema) ok) (getOrSet (rentalJson texts)
      RENTAL_CACHE_NAMESPACE (texts.ids.print id) RENTAL_CACHE_TTL_SECONDS RENTALS_CACHE_TAG
        (RentalsService.loadRental id userId)) _ world :=
    wpE_getOrSet (c := rentalCache texts) (d := paymentCache texts) available
    (rental_key_ne texts) fresh.rentals fresh.payments
    (by decide : 0 < RENTAL_CACHE_TTL_SECONDS) (RentalsService.loadRental id userId)
    (P := fun result =>
      (∀ choice world, ok choice world (.query (.findRental id)) → choice.fault = none) →
        Found world.primary id userId result)
    (fun rental current _ => ⟨fun _ same => by cases same; exact current, fun _ => by simp⟩)
    fun between sound other same => by
      refine wpE_mono (Program.assuming_monotone _ _) (fun result after loads => ?_)
        (wpE_loadRental ⟨other, sound⟩ userId fun choice chosen replica served =>
          (shown choice between same chosen replica served).trans (by rw [same]))
      have current : ∀ rental, result = .ok rental →
          (rentalCache texts).Current world.primary id rental :=
        fun rental returned => same ▸ loads.current rental returned
      refine ⟨loads.fresh.rentals, loads.fresh.payments, loads.primary.trans same,
        fun calm => ⟨current, fun e thrown => ?_⟩, current⟩
      rw [← same, ← loads.answers fun choice chosen => calm choice between chosen, thrown]
  refine wpE_seq (Program.assuming_monotone _ _) finds
    (fun e after ends => ⟨⟨ends.2.1, ends.1⟩, fun calm => ?_⟩) fun rental after ends => ?_
  · exact ((ends.2.2 calm).refused e rfl).symm
  · have checks : (∀ choice world, ok choice world (.query (.findRental id)) →
        choice.fault = none) → RentalsService.visibleRental (world.primary.rentals.findById id)
          userId = if ∃ reader ∈ userId.filter (· ≠ ""), rental.userId ≠ reader then
            .error (.forbidden "You do not have access to this rental")
          else .ok rental := by
      intro calm
      obtain ⟨found, alive⟩ := (ends.2.2 calm).found rental rfl
      rw [found, visibleRental_alive alive]
    simp only [wpE_ite]
    split
    · rename_i foreign
      exact ⟨⟨ends.2.1, ends.1⟩, fun calm => ((checks calm).trans (if_pos foreign)).symm⟩
    · rename_i own
      exact ⟨⟨ends.2.1, ends.1⟩, fun calm => ((checks calm).trans (if_neg own)).symm⟩

variable (schema texts)

/-- Nothing fails, and the router picks no replica on which the rentals are not those of the
primary. -/
def Choice.Calm (db : Database) (choice : Choice) : Prop :=
  choice.fault = none ∧ ∀ replica ∈ choice.served, replica.rentals = db.rentals

/-- A payment or a rental is found as it is, and not found where there is none. -/
structure World.ReadsCurrent (world : World) : Prop where
  findPayment : ∀ choices : Nat → Choice, (∀ n, (choices n).Calm world.primary) → ∀ id,
    ((PaymentsService.findById texts id).run.eval (World.exec schema) choices world).1 =
      existingPayment (world.primary.ledger.findById id)
  findRental : ∀ choices : Nat → Choice, (∀ n, (choices n).Calm world.primary) → ∀ id userId,
    ((RentalsService.findById texts id userId).run.eval (World.exec schema) choices world).1 =
      RentalsService.visibleRental (world.primary.rentals.findById id) userId

variable {schema texts}

theorem Fresh.readsCurrent (fresh : Fresh texts Nobody Nobody world) :
    world.ReadsCurrent schema texts where
  findPayment choices calm id := by
    have available : Available fun choice _ _ => choice.Calm world.primary :=
      fun _ _ _ calm => calm.1
    exact (Program.eval_of_assuming (wpE_findPayment available fresh)
      (Program.each_of_choices calm _ _)).2 fun choice _ calm => calm.1
  findRental choices calm id userId := by
    have available : Available fun choice _ _ => choice.Calm world.primary :=
      fun _ _ _ calm => calm.1
    have finds : wpE (Program.assuming (World.exec schema) fun choice _ _ =>
        choice.Calm world.primary) (RentalsService.findById texts id userId) _ world :=
      wpE_findRental available fresh userId fun choice between same calm replica served => by
        rw [calm.2 replica served]
    exact (Program.eval_of_assuming finds (Program.each_of_choices calm _ _)).2
      fun choice _ calm => calm.1

end Reads

/-- What is done with payments and rentals. -/
inductive Task where
  | payments (request : PaymentsRequest)
  | findRental (id : Nat) (userId : Option String)
  | extendRental (id : Nat) (extensionDays : Int) (userId : String) (paymentMethod : Option String)
  | returnRental (id : Nat) (userId : String)
  | checkAndExpireOverdue
  | paymentCompleted (paymentId : Nat)
  | refundCompleted (paymentId : Nat)
  | purchase (userId bookId : String) (paymentMethod : Option String)
  | rent (userId bookId : String) (durationDays : Int) (paymentMethod : Option String)

section Runs
variable (schema : TransactionsSchema) (texts : RowTexts) (platform : Platform)
  (config : PaymobConfig)

def Task.run : Task → Method Unit
  | payments request => do let _ ← request.run texts platform config
  | findRental id userId => do let _ ← RentalsService.findById texts id userId
  | extendRental id extensionDays userId paymentMethod => do
    let _ ← RentalsService.extendRental texts platform id extensionDays userId paymentMethod
  | returnRental id userId => do let _ ← RentalsService.returnRental texts id userId
  | checkAndExpireOverdue => RentalsService.checkAndExpireOverdue texts
  | paymentCompleted paymentId => RentalsEventHandler.handlePaymentCompleted paymentId
  | refundCompleted paymentId => RentalsEventHandler.handleRefundCompleted texts paymentId
  | purchase userId bookId paymentMethod => do
    let _ ← BooksService.purchase texts platform userId bookId paymentMethod
  | rent userId bookId durationDays paymentMethod => do
    let _ ← BooksService.rent texts platform userId bookId durationDays paymentMethod

/-- An operation, and what happens around its calls. -/
structure Step where
  task : Task
  choices : Nat → Choice

def Step.after (world : World) (step : Step) : World :=
  ((step.task.run texts platform config).run.eval (World.exec schema) step.choices world).2

/-- Each call of the operation leaves the cached rows alone, or somebody retires them. -/
def Step.Retires (world : World) (step : Step) : Prop :=
  (step.task.run texts platform config).run.Each (World.exec schema)
    (Commerce.Retires schema texts) step.choices world

variable {schema texts platform config} {world : World}

theorem wpE_discarded {α : Type} {p : Method α} (does : wpE (retiring schema texts) p
    (fun _ after => Fresh texts Nobody Nobody after) world) :
    wpE (retiring schema texts) (do let _ ← p)
      (fun _ after => Fresh texts Nobody Nobody after) world :=
  wpE_seq retiring_monotone does (fun _ _ fresh => fresh) fun _ _ fresh => fresh

theorem wpE_invalidateBookCache (fresh : Fresh texts Nobody Nobody world) (id : String)
    (isbn : Option String) :
    wpE (retiring schema texts) (BooksService.invalidateBookCache id isbn)
      (fun _ after => Fresh texts Nobody Nobody after) world := by
  have drops (key : Units) {world : World} (fresh : Fresh texts Nobody Nobody world) :
      wpE (retiring schema texts) (cache (TaggedCacheService.invalidateKey BOOK_CACHE_NAMESPACE key
        [BOOKS_CACHE_TAG] : CacheCalls Unit Unit))
        (fun _ after => Fresh texts Nobody Nobody after) world := by
    refine wpE_mono retiring_monotone ?_ (wpE_cache_faded available_retires fresh.payments
      fresh.rentals (wpE_dropsKey _ key _ (paymentCache texts).apart fresh.payments.tidy)
      (wpE_dropsKey _ key _ (rentalCache texts).apart fresh.rentals.tidy))
    rintro result after ⟨payments, rentals⟩
    exact ⟨payments.weaken fun _ left => left.1, rentals.weaken fun _ left => left.1⟩
  refine wpE_seq retiring_monotone (drops _ fresh) (fun _ _ fresh => fresh) ?_
  intro _ after fresh
  split
  · exact fresh
  · exact drops _ fresh

/-- What comes after the checks of a sale. -/
theorem wpE_sells (fresh : Fresh texts Nobody Nobody world) (bookId : String)
    (isbn : Option String) (userId : String) (amount : Rat) (currency : String) (metadata : Json) :
    wpE (retiring schema texts) (do
      query (.incrementViewCount bookId)
      BooksService.invalidateBookCache bookId isbn
      PaymentsService.paymobInitializePayment texts platform userId amount currency metadata)
      (fun _ after => Fresh texts Nobody Nobody after) world := by
  refine wpE_seq retiring_monotone (wpE_free_query fresh rfl rfl) (fun _ _ fresh => fresh) ?_
  intro _ after fresh
  refine wpE_seq retiring_monotone (wpE_invalidateBookCache fresh _ _) (fun _ _ fresh => fresh) ?_
  exact fun _ last fresh => wpE_paymobInitializePayment fresh _ _ _ _

theorem wpE_purchase (fresh : Fresh texts Nobody Nobody world) (userId bookId : String)
    (paymentMethod : Option String) :
    wpE (retiring schema texts) (BooksService.purchase texts platform userId bookId paymentMethod)
      (fun _ after => Fresh texts Nobody Nobody after) world := by
  refine wpE_seq retiring_monotone (wpE_free_query fresh rfl rfl) (fun _ _ fresh => fresh) ?_
  intro found after fresh
  refine wpE_liftM_bind _ (fun _ _ => fresh) fun book _ => ?_
  refine wpE_seq retiring_monotone (wpE_free_query fresh rfl rfl) (fun _ _ fresh => fresh) ?_
  intro existing later fresh
  cases existing with
  | some item => exact fresh
  | none => exact wpE_sells fresh _ _ _ _ _ _

theorem wpE_rent (fresh : Fresh texts Nobody Nobody world) (userId bookId : String)
    (durationDays : Int) (paymentMethod : Option String) :
    wpE (retiring schema texts)
      (BooksService.rent texts platform userId bookId durationDays paymentMethod)
      (fun _ after => Fresh texts Nobody Nobody after) world := by
  refine wpE_seq retiring_monotone (wpE_free_query fresh rfl rfl) (fun _ _ fresh => fresh) ?_
  intro found after fresh
  refine wpE_liftM_bind _ (fun _ _ => fresh) fun book _ => ?_
  simp only [wpE_ite]
  split
  · exact fresh
  refine wpE_seq retiring_monotone (wpE_free_query fresh rfl rfl) (fun _ _ fresh => fresh) ?_
  intro existing later fresh
  cases existing with
  | some item => exact fresh
  | none => exact wpE_sells fresh _ _ _ _ _ _

theorem wpE_findById (fresh : Fresh texts Nobody Nobody world) (id : Nat) :
    wpE (retiring schema texts) (PaymentsService.findById texts id)
      (fun _ after => Fresh texts Nobody Nobody after) world :=
  wpE_mono retiring_monotone (fun _ _ ends => ends.1) (wpE_findPayment available_retires fresh)

theorem wpE_request (fresh : Fresh texts Nobody Nobody world) (request : PaymentsRequest) :
    wpE (retiring schema texts) (request.run texts platform config)
      (fun _ after => Fresh texts Nobody Nobody after) world := by
  cases request with
  | createPayment input initializeGateway => exact wpE_createPayment fresh input initializeGateway
  | getAdminStats => exact wpE_free_query fresh rfl rfl
  | findById id => exact wpE_findById fresh id
  | findByOrderId orderId => exact wpE_free_query fresh rfl rfl
  | findAll params => exact wpE_free_query fresh rfl rfl
  | updateStatus id status => exact wpE_payments (wpE_updateStatus fresh status)
  | createTransaction paymentId type status amount gatewayResponse =>
    refine wpE_seq retiring_monotone (P := fun _ after => Fresh texts Nobody Nobody after) ?_
      (fun _ _ fresh => fresh) fun payment after fresh => wpE_free_query fresh rfl rfl
    exact wpE_mono retiring_monotone (fun _ _ loads => loads.fresh) (wpE_loadPayment fresh)
  | createRefund paymentId amount reason =>
    exact wpE_payments (wpE_createRefund fresh amount reason)
  | paymobInitializePayment userId amount currency metadata =>
    exact wpE_paymobInitializePayment fresh userId amount currency metadata
  | getRefunds paymentId => exact wpE_free_query fresh rfl rfl
  | handlePaymobWebhook rawBody signature =>
    exact wpE_payments (wpE_handlePaymobWebhook fresh rawBody signature)

theorem wpE_run (fresh : Fresh texts Nobody Nobody world) (task : Task) :
    wpE (retiring schema texts) (task.run texts platform config)
      (fun _ after => Fresh texts Nobody Nobody after) world := by
  cases task with
  | payments request => exact wpE_discarded (wpE_request fresh request)
  | findRental id userId =>
    have finds : wpE (retiring schema texts) (RentalsService.findById texts id userId) _ world :=
      wpE_findRental available_retires fresh userId fun choice between same retires replica served =>
        (retires.shown id rfl replica served).trans (by rw [same])
    exact wpE_discarded (wpE_mono retiring_monotone (fun _ _ ends => ends.1) finds)
  | extendRental id extensionDays userId paymentMethod =>
    exact wpE_discarded (wpE_extendRental fresh extensionDays userId paymentMethod)
  | returnRental id userId => exact wpE_discarded (wpE_returnRental fresh userId)
  | checkAndExpireOverdue => exact wpE_checkAndExpireOverdue fresh
  | paymentCompleted paymentId => exact wpE_rentalsPaymentCompleted fresh paymentId
  | refundCompleted paymentId => exact wpE_rentalsRefundCompleted fresh paymentId
  | purchase userId bookId paymentMethod =>
    exact wpE_discarded (wpE_purchase fresh userId bookId paymentMethod)
  | rent userId bookId durationDays paymentMethod =>
    exact wpE_discarded (wpE_rent fresh userId bookId durationDays paymentMethod)

theorem Fresh.step {step : Step} (fresh : Fresh texts Nobody Nobody world)
    (retires : step.Retires schema texts platform config world) :
    Fresh texts Nobody Nobody (step.after schema texts platform config world) :=
  Program.eval_of_assuming (wpE_run fresh step.task) retires

/-- Nothing is cached yet. -/
theorem fresh_of_empty (empty : world.cache = .empty) : Fresh texts Nobody Nobody world := by
  have absent (key : Units) : world.store.live key = none := by
    rw [World.store, empty]
    rfl
  have sound {α : Type} (c : RowCache α) : c.Sound Nobody world := by
    refine ⟨⟨fun key _ e found => ?_, fun e found => ?_, fun e found => ?_⟩, ?_⟩
    · cases (absent key).symm.trans found
    · cases (absent _).symm.trans found
    · cases (absent _).symm.trans found
    · rintro id row ⟨e, content, found, -⟩ -
      cases (absent _).symm.trans found
  exact ⟨sound _, sound _⟩

/-- In a run whose operations retire what they change, payments and rentals are found as they are
after each of them. -/
theorem rows_current (empty : world.cache = .empty) {steps : List Step}
    (retires : Trace.Meets (Step.after schema texts platform config)
      (Step.Retires schema texts platform config) world steps) :
    (Trace.run (Step.after schema texts platform config) world steps).ReadsCurrent schema texts :=
  Fresh.readsCurrent (Trace.run_invariant (fun _ _ fresh retires => fresh.step retires)
    (fresh_of_empty empty) retires)

/-- A call that neither extends a rental nor comes between a write and its drop. -/
structure Call.Quiet (call : Call) : Prop where
  keeps : ∀ id patch, call = .query (.updateRental id patch) → patch.extendedCount = none
  settled : ∀ db, call.pending db = none

theorem retires_quiet {call : Call} (quiet : call.Quiet) :
    Retires schema texts {} world call where
  available _ _ := rfl
  shown _ _ _ served := by cases served
  extended id patch queries extends' := absurd (quiet.keeps id patch queries) extends'
  pending id pending _ := by cases (quiet.settled world.primary).symm.trans pending
  reported _ _ carried := by
    obtain ⟨fault, failed, -⟩ := carried
    cases failed

theorem quiet_cache {D α : Type} (p : CacheCalls D α) : OnlyE Call.Quiet (cache p) := by
  refine ⟨(Program.only_any p.run).expand _ fun call _ => ?_⟩
  cases call with
  | valkey command => exact ⟨⟨fun _ _ => (by simp), fun _ => rfl⟩, fun _ => trivial⟩
  | readDatabase => trivial
  | changeDatabase change => trivial

theorem quiet_findRental (id : Nat) (userId : Option String) :
    OnlyE Call.Quiet (RentalsService.findById texts id userId) := by
  have checks (rental : Rental) : OnlyE Call.Quiet (if ∃ reader ∈ userId.filter (· ≠ ""),
      rental.userId ≠ reader then throw (.forbidden "You do not have access to this rental")
    else return rental : Method Rental) := by
    split
    · exact onlyE_throw _
    · exact onlyE_pure _
  have loads : OnlyE Call.Quiet (RentalsService.loadRental id userId) :=
    OnlyE.bind ⟨⟨fun _ _ => (by simp), fun _ => rfl⟩, fun _ => trivial⟩ fun _ => ⟨trivial⟩
  refine OnlyE.bind ?_ checks
  refine (quiet_cache _).bind fun found => ?_
  cases found with
  | some rental => exact onlyE_pure rental
  | none =>
    exact (quiet_cache _).bind fun _ => loads.bind fun loaded =>
      (quiet_cache _).bind fun _ => onlyE_pure loaded

theorem quiet_returnRental (id : Nat) (userId : String) :
    OnlyE Call.Quiet (RentalsService.returnRental texts id userId) := by
  have finds : OnlyE Call.Quiet (query (.findRental id)) :=
    ⟨⟨fun _ _ => (by simp), fun _ => rfl⟩, fun _ => trivial⟩
  have owns (found : Option Rental) :
      OnlyE Call.Quiet (liftM (Stepwise.ownRental found userId) : Method Rental) := ⟨trivial⟩
  refine finds.bind fun found => (owns found).bind fun rental => ?_
  split
  · exact onlyE_throw _
  · refine OnlyE.bind ⟨⟨fun _ _ => (by simp), fun _ => rfl⟩, fun _ => trivial⟩ fun returnedAt => ?_
    have writes : OnlyE Call.Quiet (query (.updateRental id
        { status := some .returned, returnedAt := some (some returnedAt) })) := by
      refine ⟨⟨?_, fun _ => rfl⟩, fun _ => trivial⟩
      rintro id' patch ⟨⟩
      rfl
    have tells : OnlyE Call.Quiet (emit (.rental (.returned id))) :=
      ⟨⟨fun _ _ => (by simp), fun _ => rfl⟩, fun _ => trivial⟩
    exact writes.bind fun updated => (quiet_cache _).bind fun _ => tells.bind fun _ =>
      onlyE_pure updated

end Runs

/-- A rental of the novel that began at the beginning of time. -/
def lentNovel : Rental where
  id := 0
  userId := "reader"
  bookId := "novel"
  status := .active
  startDate := 0
  endDate := 0
  extendedCount := 0
  maxExtensions := 2
  returnedAt := none
  deletedAt := none
  createdAt := 0

/-- The payment for one day more. -/
def extensionPayment : Payment where
  id := 0
  userId := "reader"
  amount := 2000
  currency := "EGP"
  status := .completed
  paymobOrderId := none
  paymobPaymentId := none
  paymobTransactionId := none
  metadata := some (.obj [("rentalId", .str "0"), ("bookId", .str "novel"),
    ("type", .str "rental_extension"), ("extensionDays", .int 1)])
  deletedAt := none

/-- The rental and the payment; nothing is cached. -/
def extensionPaid : World where
  clock := 0
  primary :=
    { ledger := { Ledger.empty with
        payments := ⟨[extensionPayment], 1, by simp, by simp [extensionPayment]⟩ }
      rentals := ⟨⟨[lentNovel], 1, by simp, by simp [lentNovel]⟩, .empty⟩
      items := .empty
      books := [] }
  cache := .empty
  emitted := []
  gatewayRefunds := []

/-- Nothing goes wrong and no time passes. -/
def undisturbed (task : Task) : Step := ⟨task, fun _ => {}⟩

/-- The reader looks at the rental, and then one day more is paid for: the rental is shown to end
when it did. -/
def extendedAfterRead : List Step :=
  [undisturbed (.findRental 0 none), undisturbed (.paymentCompleted 0)]

theorem extension_stale : ¬ ∀ steps : List Step,
    (∀ step ∈ steps, ∀ n, (step.choices n).Calm extensionPaid.primary) →
    (Trace.run (Step.after paymentTransactionsP .epoch .plain .default) extensionPaid
      steps).ReadsCurrent paymentTransactionsP .epoch := by
  intro always
  have calm : ∀ step ∈ extendedAfterRead, ∀ n, (step.choices n).Calm extensionPaid.primary := by
    intro step member n
    simp only [extendedAfterRead, List.mem_cons, List.not_mem_nil, or_false] at member
    rcases member with rfl | rfl <;> exact ⟨rfl, fun _ => by rintro ⟨⟩⟩
  have read :=
    (always extendedAfterRead calm).findRental (fun _ => {}) (fun _ => ⟨rfl, fun _ => by simp⟩) 0
    none
  have shown := congrArg (fun result => result.toOption.map Rental.endDate) read
  revert shown
  decide

/-- A rental that was looked at is shown as returned once it is. -/
theorem returned_current : (Trace.run (Step.after paymentTransactionsP .epoch .plain .default)
    extensionPaid [undisturbed (.findRental 0 none),
      undisturbed (.returnRental 0 "reader")]).ReadsCurrent paymentTransactionsP .epoch := by
  have met (task : Task) (quiet : OnlyE Call.Quiet (task.run .epoch .plain .default))
      (world : World) : Step.Retires paymentTransactionsP .epoch .plain .default world
        (undisturbed task) := quiet.only.each (fun _ _ _ one => retires_quiet one) world
  exact rows_current rfl ⟨met (.findRental 0 none) ((quiet_findRental 0 none).bind fun _ => onlyE_pure ()) _,
    met (.returnRental 0 "reader") ((quiet_returnRental 0 "reader").bind fun _ => onlyE_pure ()) _, trivial⟩

end Commerce
