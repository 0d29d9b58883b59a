import Hakawi.Commerce.Cached
import Hakawi.Effects.Trace

/-!
# Who retires the cached copy

The services drop what they change. Between the write of a payment and the drop of its key other
calls may throw, a paid extension drops nothing, and a rental that is loaded from a replica may be
an old one: where none of this concerns a row that is cached, the cache stays current.
-/

namespace Commerce
open Html Common Effects Caching Payments Rentals Library Store

/-- Whether a call throws. -/
def Call.Throws : (call : Call) → call.Result → Prop
  | .now, _ => False
  | .query _, answer => ∃ e, answer = .error e
  | .cache _, answer => ∃ e, answer = .error e
  | .emit _, answer => ∃ e, answer = .error e
  | .getAuthToken, answer => ∃ e, answer = .error e
  | .createCheckout _ _ _, answer => ∃ e, answer = .error e
  | .refundAttempt _ _, answer => ∃ e, answer = .error e

/-- The payment whose key is still to be dropped, of the calls that come between its write and
that. -/
def Call.pending (db : Database) : Call → Option Nat
  | .query (.createTransaction data) => if data.type = "webhook" then some data.paymentId else none
  | .query (.updateRefund id patch) =>
    if patch.status = some .failed then (db.ledger.refunds.find? id).map Refund.paymentId else none
  | .query (.reconcileRefundCapacity paymentId) => some paymentId
  | .emit (.payment (.refundCreated paymentId _)) => some paymentId
  | .emit (.payment (.refundFailed paymentId _)) => some paymentId
  | _ => none

def World.CachesPayment (texts : RowTexts) (world : World) (id : Nat) : Prop :=
  ∃ payment, (paymentCache texts).Holds world id payment

def World.CachesRental (texts : RowTexts) (world : World) (id : Nat) : Prop :=
  ∃ rental, (rentalCache texts).Holds world id rental

/-- The store is available, and nothing happens to a cached row after which nobody drops it. -/
structure Retires (schema : TransactionsSchema) (texts : RowTexts) (choice : Choice) (world : World)
    (call : Call) : Prop where
  available : ∀ command, call = .cache command → choice.fault = none
  /-- A replica shows a rental as it is. -/
  shown : ∀ id, call = .query (.findRental id) → ∀ replica ∈ choice.served,
    replica.rentals.findById id = world.primary.rentals.findById id
  /-- No rental is extended while it is cached. -/
  extended : ∀ id patch, call = .query (.updateRental id patch) → patch.extendedCount ≠ none →
    ¬ world.CachesRental texts id
  pending : ∀ id, call.pending world.primary = some id →
    call.Throws (World.exec schema choice world call).1 → ¬ world.CachesPayment texts id
  /-- What is carried out is not reported to have failed. -/
  reported : ∀ statement, call = .query statement → (∃ fault ∈ choice.fault, fault.performed) →
    (∀ id, statement.writesPayment = some id → ¬ world.CachesPayment texts id) ∧
      ∀ id, statement.writesRental = some id → ¬ world.CachesRental texts id

/-- What is cached is current, apart from some payments and some rentals. -/
structure Fresh (texts : RowTexts) (gone lost : Nat → Prop) (world : World) : Prop where
  payments : (paymentCache texts).Sound gone world
  rentals : (rentalCache texts).Sound lost world

def Nobody : Nat → Prop := fun _ => False

section Rules
variable {schema : TransactionsSchema} {texts : RowTexts} {gone gone' lost lost' : Nat → Prop}
  {world : World} {choice : Choice} {call : Call} {statement : Statement} {id : Nat} {α : Type}

theorem Fresh.weaken (fresh : Fresh texts gone lost world) (more : ∀ id, gone id → gone' id)
    (more' : ∀ id, lost id → lost' id) : Fresh texts gone' lost' world :=
  ⟨fresh.payments.weaken more, fresh.rentals.weaken more'⟩

/-- A row that is not cached is as good as current. -/
theorem Fresh.forget (fresh : Fresh texts gone lost world)
    (payments : ∀ id, gone id → ¬ world.CachesPayment texts id)
    (rentals : ∀ id, lost id → ¬ world.CachesRental texts id) : Fresh texts Nobody Nobody world :=
  ⟨fresh.payments.absent fun id left payment holds => payments id left ⟨payment, holds⟩,
    fresh.rentals.absent fun id left rental holds => rentals id left ⟨rental, holds⟩⟩

theorem Fresh.exec (fresh : Fresh texts gone lost world) (plain : ∀ command, call ≠ .cache command)
    (payments : ∀ statement id, call = .query statement → statement.writesPayment = some id →
      world.CachesPayment texts id → gone id)
    (rentals : ∀ statement id, call = .query statement → statement.writesRental = some id →
      world.CachesRental texts id → lost id) :
    Fresh texts gone lost (World.exec schema choice world call).2 :=
  ⟨fresh.payments.exec plain payments, fresh.rentals.exec plain rentals⟩

/-- A call that leaves the cache, the payments and the rentals alone. -/
structure Call.Free (call : Call) : Prop where
  plain : ∀ command, call ≠ .cache command
  payments : ∀ statement, call = .query statement → statement.writesPayment = none
  rentals : ∀ statement, call = .query statement → statement.writesRental = none

theorem Fresh.free (fresh : Fresh texts gone lost world) (free : call.Free) :
    Fresh texts gone lost (World.exec schema choice world call).2 := by
  refine fresh.exec free.plain (fun statement id queries writes => ?_)
    fun statement id queries writes => ?_
  · cases (free.payments statement queries).symm.trans writes
  · cases (free.rentals statement queries).symm.trans writes

abbrev retiring (schema : TransactionsSchema) (texts : RowTexts) :
    Program.OpSpec Call Call.Result World :=
  Program.assuming (World.exec schema) (Retires schema texts)

theorem retiring_monotone : (retiring schema texts).Monotone := Program.assuming_monotone _ _

theorem available_retires : Available (Retires schema texts) :=
  fun _ _ command retires => retires.available command rfl

theorem wpE_freely {p : Method α} (free : OnlyE Call.Free p) (fresh : Fresh texts gone lost world) :
    wpE (retiring schema texts) p (fun _ after => Fresh texts gone lost after) world :=
  free.only.wp_assuming (fun _ _ _ one fresh => fresh.free one) fresh

/-- A statement that throws leaves the primary as it is, or was carried out all the same. -/
theorem primary_of_throws {e : Failure}
    (throws : (World.exec schema choice world (.query statement)).1 = .error e) :
    (World.exec schema choice world (.query statement)).2.primary = world.primary ∨
      ∃ fault ∈ choice.fault, fault.performed := by
  rw [World.exec] at throws ⊢
  cases failed : choice.fault with
  | none =>
    simp only [failed] at throws ⊢
    refine Or.inl ?_
    simp only [World.perform] at throws ⊢
    have rejects : ∀ db : Database, (db.apply schema choice.pick statement).1 = .error e →
        (db.apply schema choice.pick statement).2 = db := by
      intro db rejected
      rw [Database.apply] at rejected ⊢
      cases performed : db.perform schema choice.pick statement with
      | error e => rfl
      | ok done =>
        rw [performed] at rejected
        cases rejected
    cases served : choice.served with
    | none =>
      simp only [World.respond, served] at throws ⊢
      exact rejects _ throws
    | some replica =>
      by_cases routed : statement.Routed
      · simp only [World.respond, served, if_pos routed]
      · simp only [World.respond, served, if_neg routed] at throws ⊢
        exact rejects _ throws
  | some fault =>
    cases carried : fault.performed with
    | true => exact Or.inr ⟨fault, rfl, carried⟩
    | false =>
      simp only [carried]
      exact Or.inl rfl

/-- A statement that writes a payment; one that throws leaves what is cached current. -/
theorem wpE_writePayment (statement : Statement) (fresh : Fresh texts Nobody Nobody world)
    (writes : statement.writesPayment = some id) (others : statement.writesRental = none) :
    wpE (retiring schema texts) (query statement) (fun result after =>
      Fresh texts (· = id) Nobody after ∧ ∀ e, result = .error e →
        Fresh texts Nobody Nobody after) world := by
  intro choice retires
  have rental (lost : Nat → Prop) : ∀ other id', Call.query statement = .query other →
      other.writesRental = some id' → world.CachesRental texts id' → lost id' := by
    rintro _ id' ⟨⟩ writes' -
    cases others.symm.trans writes'
  constructor
  · refine (fresh.weaken (fun _ never => never.elim) fun _ never => never).exec nofun ?_ (rental _)
    rintro _ id' ⟨⟩ writes' -
    exact Option.some.inj (writes'.symm.trans writes)
  · intro e throws
    rcases primary_of_throws throws with same | carried
    · exact ⟨fresh.payments.still same (fresh.payments.faded_exec _ _ nofun),
        fresh.rentals.still same (fresh.rentals.faded_exec _ _ nofun)⟩
    · refine fresh.exec nofun ?_ (rental _)
      rintro _ id' ⟨⟩ writes' cached
      exact ((retires.reported statement rfl carried).1 id' writes' cached).elim

/-- A statement that writes a rental, and does not extend it. -/
theorem wpE_writeRental {patch : RentalPatch} (fresh : Fresh texts Nobody Nobody world) :
    wpE (retiring schema texts) (query (.updateRental id patch)) (fun result after =>
      Fresh texts Nobody (· = id) after ∧ ∀ e, result = .error e →
        Fresh texts Nobody Nobody after) world := by
  intro choice retires
  have payment (gone : Nat → Prop) : ∀ other id', Call.query (.updateRental id patch) =
      .query other → other.writesPayment = some id' → world.CachesPayment texts id' → gone id' := by
    rintro _ id' ⟨⟩ ⟨⟩
  constructor
  · refine (fresh.weaken (fun _ never => never) fun _ never => never.elim).exec nofun (payment _) ?_
    rintro _ id' ⟨⟩ ⟨⟩ -
    rfl
  · intro e throws
    rcases primary_of_throws throws with same | carried
    · exact ⟨fresh.payments.still same (fresh.payments.faded_exec _ _ nofun),
        fresh.rentals.still same (fresh.rentals.faded_exec _ _ nofun)⟩
    · refine fresh.exec nofun (payment _) ?_
      rintro _ id' ⟨⟩ writes' cached
      exact ((retires.reported _ rfl carried).2 id' writes' cached).elim

/-- An extension, of a rental that is not cached. -/
theorem wpE_extends {patch : RentalPatch} (fresh : Fresh texts Nobody Nobody world)
    (extends' : patch.extendedCount ≠ none) :
    wpE (retiring schema texts) (query (.updateRental id patch))
      (fun _ after => Fresh texts Nobody Nobody after) world := by
  intro choice retires
  refine fresh.exec nofun ?_ ?_
  · rintro _ id' ⟨⟩ ⟨⟩
  · rintro _ id' ⟨⟩ ⟨⟩ cached
    exact (retires.extended id patch rfl extends' cached).elim

/-- A call between the write of a payment and the drop of its key. -/
theorem Fresh.pending (fresh : Fresh texts (· = id) Nobody world)
    (retires : Retires schema texts choice world call)
    (pending : call.pending world.primary = some id) :
    Fresh texts (· = id) Nobody (World.exec schema choice world call).2 ∧
      (call.Throws (World.exec schema choice world call).1 →
        Fresh texts Nobody Nobody (World.exec schema choice world call).2) := by
  have plain : ∀ command, call ≠ .cache command := by
    rintro command rfl
    cases pending
  have rental (lost : Nat → Prop) : ∀ other id', call = .query other →
      other.writesRental = some id' → world.CachesRental texts id' → lost id' := by
    rintro other id' rfl writes -
    cases other <;> cases writes
    cases pending
  have payment : ∀ other id', call = .query other → other.writesPayment = some id' → id' = id := by
    rintro other id' rfl writes
    cases other <;> cases writes <;> cases pending
    rfl
  refine ⟨fresh.exec plain (fun other id' queries writes _ => payment other id' queries writes)
    (rental _), fun throws => ?_⟩
  have uncached := retires.pending id pending throws
  have forgot : Fresh texts Nobody Nobody world :=
    fresh.forget (fun id' same => same ▸ uncached) fun _ never => never.elim
  refine forgot.exec plain (fun other id' queries writes cached => ?_) (rental _)
  rw [payment other id' queries writes] at cached
  exact (uncached cached).elim

end Rules

section Payments
open PaymentsService
variable {schema : TransactionsSchema} {texts : RowTexts} {platform : Platform}
  {config : PaymobConfig} {gone lost : Nat → Prop} {world : World} {id : Nat} {α : Type}

/-- The calls of the payments module, as they are taken over. -/
def Taken (schema : TransactionsSchema) (texts : RowTexts) :
    Program.OpSpec PaymentsOp PaymentsOp.Result World :=
  fun op Q world => (paymentsCall texts op).wp (retiring schema texts) Q world

theorem taken_monotone : (Taken schema texts).Monotone :=
  fun _ _ _ _ weaker holds => Program.wp_mono retiring_monotone weaker holds

theorem wpE_payments {p : Payments.Handler α} {Q : Except Failure α → World → Prop}
    (takes : wpE (Taken schema texts) p Q world) :
    wpE (retiring schema texts) (payments texts p) Q world := by
  rw [wpE, payments, ExceptT.run_mk, Program.wp_expand]
  exact takes

/-- The operations that are taken over by calls that leave the rows alone. -/
def PaymentsOpFree : PaymentsOp → Prop
  | .update _ _ | .reserveRefundCapacity _ | .reconcileRefundCapacity _ | .invalidateKey _ _ |
    .invalidateTags _ => False
  | _ => True

theorem free_query {statement : Statement} (payments : statement.writesPayment = none)
    (rentals : statement.writesRental = none) : (Call.query statement).Free := by
  refine ⟨nofun, ?_, ?_⟩
  · rintro _ ⟨⟩
    exact payments
  · rintro _ ⟨⟩
    exact rentals

theorem free_emit (event : Event) : (Call.emit event).Free :=
  ⟨fun _ => nofun, fun _ => nofun, fun _ => nofun⟩

theorem wpE_taken_freely {p : Payments.Handler α} (free : OnlyE PaymentsOpFree p)
    (fresh : Fresh texts gone lost world) :
    wpE (Taken schema texts) p (fun _ after => Fresh texts gone lost after) world := by
  have calls : OnlyE Call.Free (payments texts p) := by
    refine ⟨free.only.expand _ fun op one => ?_⟩
    cases op with
    | findById id => exact ⟨free_query rfl rfl, fun _ => trivial⟩
    | findByOrderId orderId => exact ⟨free_query rfl rfl, fun _ => trivial⟩
    | findByTransactionId transactionId => exact ⟨free_query rfl rfl, fun _ => trivial⟩
    | createTransaction data => exact ⟨free_query rfl rfl, fun _ => trivial⟩
    | updateRefund id patch => exact ⟨free_query rfl rfl, fun _ => trivial⟩
    | emit event => exact ⟨free_emit _, fun _ => trivial⟩
    | getAuthToken => exact ⟨⟨fun _ => nofun, fun _ => nofun, fun _ => nofun⟩, fun _ => trivial⟩
    | refundAttempt transactionId amountCents =>
      exact ⟨⟨fun _ => nofun, fun _ => nofun, fun _ => nofun⟩, fun _ => trivial⟩
    | _ => exact one.elim
  have runs : wpE (retiring schema texts) (payments texts p)
      (fun _ after => Fresh texts gone lost after) world := wpE_freely calls fresh
  rw [wpE, payments, ExceptT.run_mk, Program.wp_expand] at runs
  exact runs

/-- One operation whose call leaves the rows alone. -/
theorem taken_free {op : PaymentsOp} (free : PaymentsOpFree op)
    (fresh : Fresh texts gone lost world) :
    wpE (Taken schema texts) (Payments.call op) (fun _ after => Fresh texts gone lost after)
      world :=
  wpE_taken_freely ⟨free, fun _ => trivial⟩ fresh

/-- The key of the payment is dropped. -/
theorem wpE_dropPayment (fresh : Fresh texts gone lost world) (id : Nat) :
    wpE (Taken schema texts) (Payments.invalidatePaymentCache id) (fun _ after =>
      Fresh texts (fun k => gone k ∧ k ≠ id) lost after) world := by
  have drops : wpE (Taken schema texts) (Payments.call (.invalidateKey PAYMENT_CACHE_NAMESPACE id))
      (fun _ after => Fresh texts (fun k => gone k ∧ k ≠ id) lost after) world :=
    wpE_mono retiring_monotone (fun _ _ ends => ⟨ends.1, ends.2⟩)
      (wpE_invalidateKey available_retires fresh.payments fresh.rentals Payment id [])
  refine wpE_seq taken_monotone drops (fun _ _ dropped => dropped) ?_
  intro _ after dropped
  exact wpE_mono retiring_monotone (fun _ _ ends => ⟨ends.1, ends.2⟩)
    (wpE_invalidateTags available_retires dropped.payments dropped.rentals Payment
      [units PAYMENTS_CACHE_TAG])

/-- What is left to drop is dropped. -/
theorem wpE_dropsPayment (fresh : Fresh texts (· = id) lost world) :
    wpE (Taken schema texts) (Payments.invalidatePaymentCache id) (fun _ after =>
      Fresh texts Nobody lost after) world :=
  wpE_mono taken_monotone
    (fun _ _ dropped => dropped.weaken (fun _ left => left.2 left.1) fun _ still => still)
    (wpE_dropPayment fresh id)

/-- The event of a payment's new status, and the answer. -/
theorem free_announce {β : Type} (status : PaymentStatus) (answer : β) :
    OnlyE PaymentsOpFree (do
      if status = .completed then Payments.call (.emit (.completed id))
      else if status = .failed then Payments.call (.emit (.failed id))
      return answer : Payments.Handler β) := by
  have emits (event : PaymentEvent) : OnlyE PaymentsOpFree (Payments.call (.emit event)) :=
    ⟨trivial, fun _ => trivial⟩
  dsimp only
  split
  · exact (emits _).bind fun _ => onlyE_pure _
  · split
    · exact (emits _).bind fun _ => onlyE_pure _
    · exact onlyE_pure _

theorem wpE_updatePayment (fresh : Fresh texts Nobody Nobody world) (patch : PaymentPatch) :
    wpE (Taken schema texts) (Payments.call (.update id patch)) (fun result after =>
      Fresh texts (· = id) Nobody after ∧ ∀ e, result = .error e →
        Fresh texts Nobody Nobody after) world :=
  wpE_writePayment (.updatePayment id patch) fresh rfl rfl

theorem wpE_updateStatus (fresh : Fresh texts Nobody Nobody world) (status : PaymentStatus) :
    wpE (Taken schema texts) (Payments.updateStatus id status)
      (fun _ after => Fresh texts Nobody Nobody after) world := by
  refine wpE_seq taken_monotone (taken_free trivial fresh) (fun _ _ fresh => fresh) ?_
  intro found between fresh
  refine wpE_liftM_bind _ (fun _ _ => fresh) fun existing _ => ?_
  refine wpE_liftM_bind _ (fun _ _ => fresh) fun _ _ => ?_
  refine wpE_seq taken_monotone (wpE_updatePayment fresh _) (fun e _ ends => ends.2 e rfl) ?_
  rintro payment after ⟨owing, -⟩
  refine wpE_seq taken_monotone (wpE_dropsPayment owing) (fun _ _ fresh => fresh) ?_
  intro _ last fresh
  exact wpE_taken_freely (free_announce status payment) fresh

/-- A call of the webhook or of a refund between the write and the drop. -/
theorem wpE_createTransaction (fresh : Fresh texts (· = id) Nobody world) {data : NewTransaction}
    (webhook : data.type = "webhook") (same : data.paymentId = id) :
    wpE (Taken schema texts) (Payments.call (.createTransaction data)) (fun result after =>
      Fresh texts (· = id) Nobody after ∧ ∀ e, result = .error e →
        Fresh texts Nobody Nobody after) world := by
  intro choice retires
  have pending : Call.pending world.primary (.query (.createTransaction data)) = some id :=
    (if_pos webhook).trans (congrArg some same)
  obtain ⟨owing, threw⟩ := fresh.pending retires pending
  exact ⟨owing, fun e throws => threw ⟨e, throws⟩⟩

theorem wpE_recordDelivery (fresh : Fresh texts Nobody Nobody world) (payment : Payment)
    (delivery : Delivery) (rawBody : String) :
    wpE (Taken schema texts) (recordDelivery payment delivery rawBody)
      (fun _ after => Fresh texts Nobody Nobody after) world := by
  refine wpE_liftM_bind _ (fun _ _ => fresh) fun _ _ => ?_
  refine wpE_seq taken_monotone (wpE_updatePayment fresh _) (fun e _ ends => ends.2 e rfl) ?_
  rintro updated after ⟨owing, -⟩
  refine wpE_seq taken_monotone (wpE_createTransaction owing rfl rfl)
    (fun e _ ends => ends.2 e rfl) ?_
  rintro transaction later ⟨owing, -⟩
  refine wpE_seq taken_monotone (wpE_dropsPayment owing) (fun _ _ fresh => fresh) ?_
  intro _ last fresh
  exact wpE_taken_freely (free_announce _ _) fresh

theorem wpE_handlePaymobWebhook (fresh : Fresh texts Nobody Nobody world) (rawBody : String)
    (signature : Option String) :
    wpE (Taken schema texts) (handlePaymobWebhook platform config rawBody signature)
      (fun _ after => Fresh texts Nobody Nobody after) world := by
  refine wpE_liftM_bind _ (fun _ _ => fresh) fun delivery _ => ?_
  refine wpE_seq taken_monotone (taken_free trivial fresh) (fun _ _ fresh => fresh) ?_
  intro existing between fresh
  rw [wpE_ite]
  split
  · exact fresh
  cases existing with
  | some payment => exact wpE_recordDelivery fresh payment delivery rawBody
  | none =>
    refine wpE_seq taken_monotone (taken_free trivial fresh) (fun _ _ fresh => fresh) ?_
    intro found after fresh
    cases found with
    | none => exact fresh
    | some payment => exact wpE_recordDelivery fresh payment delivery rawBody

/-- A statement that answers was carried out on the primary, if it is not routed. -/
theorem answered_of_ok (statement : Statement) {choice : Choice} {answer : statement.Answer}
    (primary : ¬ statement.Routed)
    (answers : (World.exec schema choice world (.query statement)).1 = .ok answer) :
    world.primary.perform schema choice.pick statement =
      .ok (answer, (World.exec schema choice world (.query statement)).2.primary) := by
  have responds : ∀ world : World, world.respond schema choice statement =
      world.primary.apply schema choice.pick statement := by
    intro world
    rw [World.respond]
    split
    · rfl
    · exact if_neg primary
  rw [World.exec] at answers ⊢
  cases failed : choice.fault with
  | some fault =>
    simp only [failed] at answers
    cases answers
  | none =>
    simp only [failed, World.perform, responds, Database.apply] at answers ⊢
    cases performed : world.primary.perform schema choice.pick statement with
    | error e =>
      rw [performed] at answers
      cases answers
    | ok done =>
      rw [performed] at answers
      cases answers
      rfl

/-- The refund, where it is recorded. -/
def World.Records (world : World) (refund : Refund) (paymentId : Nat) : Prop :=
  refund.paymentId = paymentId ∧
    (world.primary.ledger.refunds.find? refund.id).map Refund.paymentId = some paymentId

theorem recorded_of_reserve {ledger after : Ledger} {input : RefundInput}
    {reservation : RefundReservation}
    (reserved : ledger.reserveRefundCapacity input = .ok (reservation, after)) :
    reservation.refund.paymentId = input.paymentId ∧
      (after.refunds.find? reservation.refund.id).map Refund.paymentId = some input.paymentId := by
  obtain ⟨payment, -, -, -, admitted⟩ := Ledger.reserveRefundCapacity_ok reserved
  have refund : reservation.refund = (ledger.insertRefund input).1 :=
    congrArg (fun done => done.1.refund) admitted
  have refunds : after.refunds = (ledger.insertRefund input).2.refunds := by
    rw [← Ledger.admitRefund_refunds, ← admitted]
  rw [refund, refunds, Ledger.find?_insertRefund]
  exact ⟨rfl, congrArg (Option.map Refund.paymentId) (if_pos rfl)⟩

theorem wpE_reserve (fresh : Fresh texts Nobody Nobody world) (input : RefundInput) :
    wpE (Taken schema texts) (Payments.call (.reserveRefundCapacity input)) (fun result after =>
      (Fresh texts (· = input.paymentId) Nobody after ∧ ∀ e, result = .error e →
        Fresh texts Nobody Nobody after) ∧ ∀ reservation, result = .ok reservation →
          after.Records reservation.refund input.paymentId) world := by
  have writes : wpE (Taken schema texts) (Payments.call (.reserveRefundCapacity input))
      (fun result after => Fresh texts (· = input.paymentId) Nobody after ∧ ∀ e,
        result = .error e → Fresh texts Nobody Nobody after) world :=
    wpE_writePayment (.reserveRefundCapacity input) fresh rfl rfl
  intro choice retires
  refine ⟨writes choice retires, fun reservation answers => ?_⟩
  have performed := answered_of_ok (.reserveRefundCapacity input) nofun answers
  obtain ⟨ledger, changed, after⟩ := onLedger_eq_ok performed
  have recorded := recorded_of_reserve changed
  exact ⟨recorded.1, by rw [show (World.exec schema choice world _).2.primary = _ from after,
    recorded.2]⟩

theorem wpE_markRefundFailed (fresh : Fresh texts (· = id) Nobody world) {refund : Refund}
    (recorded : world.Records refund id) (errorDetail : List (String × Json)) :
    wpE (Taken schema texts) (markRefundFailed refund errorDetail) (fun result after =>
      Fresh texts (· = id) Nobody after ∧ ∀ e, result = .error e →
        Fresh texts Nobody Nobody after) world := by
  have updates : wpE (Taken schema texts) (Payments.call (.updateRefund refund.id
      { status := some .failed, metadata := some (some (.obj errorDetail)) }))
      (fun result after => Fresh texts (· = id) Nobody after ∧ ∀ e, result = .error e →
        Fresh texts Nobody Nobody after) world := by
    intro choice retires
    have pending : Call.pending world.primary (.query (.updateRefund refund.id
        { status := some .failed, metadata := some (some (.obj errorDetail)) })) = some id := by
      rw [Call.pending, if_pos rfl]
      exact recorded.2
    obtain ⟨owing, threw⟩ := fresh.pending retires pending
    exact ⟨owing, fun e throws => threw ⟨e, throws⟩⟩
  refine wpE_seq taken_monotone updates (fun e _ ends => ⟨ends.1, fun _ _ => ends.2 e rfl⟩) ?_
  rintro _ after ⟨owing, -⟩
  intro choice retires
  have pending : Call.pending after.primary
      (.emit (.payment (.refundFailed refund.paymentId refund.id))) = some id :=
    congrArg some recorded.1
  obtain ⟨owing, threw⟩ := owing.pending retires pending
  exact ⟨owing, fun e throws => threw ⟨e, throws⟩⟩

/-- What is thrown here is swallowed. -/
theorem wpE_releaseRefundCapacity (fresh : Fresh texts (· = id) Nobody world) :
    wpE (Taken schema texts) (releaseRefundCapacity id)
      (fun _ after => Fresh texts Nobody Nobody after) world := by
  have reconciles : wpE (Taken schema texts) (Payments.call (.reconcileRefundCapacity id))
      (fun result after => Fresh texts (· = id) Nobody after ∧ ∀ e, result = .error e →
        Fresh texts Nobody Nobody after) world := by
    intro choice retires
    obtain ⟨owing, threw⟩ := fresh.pending retires
      (rfl : Call.pending world.primary (.query (.reconcileRefundCapacity id)) = some id)
    exact ⟨owing, fun e throws => threw ⟨e, throws⟩⟩
  have releases : wpE (Taken schema texts) (do
      let _ ← Payments.call (.reconcileRefundCapacity id)
      Payments.invalidatePaymentCache id : Payments.Handler Unit)
      (fun _ after => Fresh texts Nobody Nobody after) world := by
    refine wpE_seq taken_monotone reconciles (fun e _ ends => ends.2 e rfl) ?_
    rintro _ after ⟨owing, -⟩
    exact wpE_dropsPayment owing
  rw [releaseRefundCapacity, wpE_tryCatch]
  refine wpE_mono taken_monotone (fun result after fresh => ?_) releases
  cases result <;> exact fresh

theorem wpE_refuse (fresh : Fresh texts (· = id) Nobody world) (error : Failure) :
    wpE (Taken schema texts) (do
      releaseRefundCapacity id
      throw error : Payments.Handler α)
      (fun _ after => Fresh texts Nobody Nobody after) world :=
  wpE_seq taken_monotone (wpE_releaseRefundCapacity fresh) (fun _ _ fresh => fresh)
    fun _ _ fresh => fresh

/-- Before the key has been dropped. -/
theorem wpE_refuseRefund_owing (fresh : Fresh texts (· = id) Nobody world) {refund : Refund}
    (recorded : world.Records refund id) (errorDetail : List (String × Json)) (error : Failure) :
    wpE (Taken schema texts) (refuseRefund refund id errorDetail error : Payments.Handler α)
      (fun _ after => Fresh texts Nobody Nobody after) world := by
  refine wpE_seq taken_monotone (wpE_markRefundFailed fresh recorded errorDetail)
    (fun e _ ends => ends.2 e rfl) ?_
  rintro _ after ⟨owing, -⟩
  exact wpE_refuse owing error

/-- After it has been dropped. -/
theorem wpE_refuseRefund (fresh : Fresh texts Nobody Nobody world) (refund : Refund)
    (errorDetail : List (String × Json)) (error : Failure) :
    wpE (Taken schema texts) (refuseRefund refund id errorDetail error : Payments.Handler α)
      (fun _ after => Fresh texts Nobody Nobody after) world := by
  have marks : OnlyE PaymentsOpFree (markRefundFailed refund errorDetail) :=
    OnlyE.bind ⟨trivial, fun _ => trivial⟩ fun _ => ⟨trivial, fun _ => trivial⟩
  refine wpE_seq taken_monotone (wpE_taken_freely marks fresh) (fun _ _ fresh => fresh) ?_
  intro _ after fresh
  exact wpE_refuse (fresh.weaken (fun _ never => never.elim) fun _ never => never) error

theorem free_withRetries {p : Payments.Handler α} (free : OnlyE PaymentsOpFree p) (n : Nat) :
    OnlyE PaymentsOpFree (withRetries p n) := by
  induction n with
  | zero => exact free
  | succ n ih =>
    refine free.tryCatch fun error => ?_
    split
    · exact ih
    · exact onlyE_throw error

theorem free_refundTransaction (transactionId : String) (amountCents : Int) :
    OnlyE PaymentsOpFree (refundTransaction platform config transactionId amountCents) := by
  have asks : OnlyE PaymentsOpFree (Payments.call .getAuthToken) := ⟨trivial, fun _ => trivial⟩
  have attempt : OnlyE PaymentsOpFree (Payments.call (.refundAttempt transactionId amountCents)) :=
    ⟨trivial, fun _ => trivial⟩
  have submits := ((free_withRetries attempt config.retryMaxAttempts).tryCatch
    fun e => onlyE_throw (.paymobGateway "refund" (describeFetchError platform e))).bind
      fun refund => onlyE_pure (E := Failure) ({
        refundId := refund.refundId.getD refund.id
        success := refund.success = some true
        pending := refund.pending = some true
        isRefund := refund.isRefund = some true
        raw := refund.raw } : PaymobRefundResult)
  rw [refundTransaction]
  dsimp only
  split
  · exact (onlyE_throw _).bind fun _ : Unit => asks.bind fun _ => submits
  · exact asks.bind fun _ => submits

theorem wpE_submitRefundToGateway (fresh : Fresh texts Nobody Nobody world) (payment : Payment)
    (refund : Refund) :
    wpE (Taken schema texts) (submitRefundToGateway platform config payment refund)
      (fun _ after => Fresh texts Nobody Nobody after) world := by
  rw [submitRefundToGateway]
  split
  · exact wpE_refuseRefund fresh refund _ _
  refine wpE_seq taken_monotone (P := fun _ after => Fresh texts Nobody Nobody after) ?_
    (fun _ _ fresh => fresh) fun result after fresh => ?_
  · rw [wpE_tryCatch]
    refine wpE_mono taken_monotone (fun result after fresh => ?_)
      (wpE_taken_freely (free_refundTransaction _ _) fresh)
    cases result with
    | ok result => exact fresh
    | error e => exact wpE_refuseRefund fresh refund _ _
  · rw [settleRefund]
    split
    · exact wpE_refuseRefund fresh refund _ _
    · have settles : OnlyE PaymentsOpFree (do
          let submitted ← Payments.call (.updateRefund refund.id {
            status := some (if result.pending then .pending else .processed)
            paymobRefundId := some (some result.refundId)
            metadata := some (some (.obj [("paymob", result.raw), ("success", .bool result.success),
              ("isRefund", .bool result.isRefund)])) })
          if result.pending then
            return submitted
          Payments.call (.emit (.refundCompleted payment.id refund.id))
          return submitted : Payments.Handler (Option Refund)) := by
        refine OnlyE.bind ⟨trivial, fun _ => trivial⟩ fun submitted => ?_
        split
        · exact onlyE_pure submitted
        · exact OnlyE.bind ⟨trivial, fun _ => trivial⟩ fun _ => onlyE_pure submitted
      exact wpE_taken_freely settles fresh

theorem wpE_createRefund (fresh : Fresh texts Nobody Nobody world) (amount : Rat)
    (reason : Option String) :
    wpE (Taken schema texts) (createRefund platform config id amount reason)
      (fun _ after => Fresh texts Nobody Nobody after) world := by
  refine wpE_liftM_bind _ (fun _ _ => fresh) fun requestedAmount _ => ?_
  refine wpE_seq taken_monotone (taken_free trivial fresh) (fun _ _ fresh => fresh) ?_
  intro found between fresh
  refine wpE_liftM_bind _ (fun _ _ => fresh) fun payment _ => ?_
  refine wpE_liftM_bind _ (fun _ _ => fresh) fun currency _ => ?_
  refine wpE_seq taken_monotone (P := fun result after =>
    (Fresh texts (· = id) Nobody after ∧ ∀ e, result = .error e →
      Fresh texts Nobody Nobody after) ∧ ∀ reservation : RefundReservation,
        result = .ok reservation → after.Records reservation.refund id) ?_
    (fun e _ ends => ends.1.2 e rfl) ?_
  · rw [wpE_tryCatch]
    refine wpE_mono taken_monotone (fun result after ends => ?_)
      (wpE_reserve fresh ⟨id, requestedAmount, currency, reason⟩)
    cases result with
    | ok reservation => exact ends
    | error e =>
      have fresh := ends.1.2 e rfl
      refine ⟨⟨fresh.weaken (fun _ never => never.elim) fun _ never => never, fun _ _ => fresh⟩, ?_⟩
      rintro reservation ⟨⟩
  rintro reservation after ⟨⟨owing, -⟩, records⟩
  rw [pursueReservation, wpE_ite]
  split
  · exact wpE_refuseRefund_owing owing (records reservation rfl) _ _
  · have announces : wpE (Taken schema texts)
        (Payments.call (.emit (.refundCreated id reservation.refund.id))) (fun result after =>
          Fresh texts (· = id) Nobody after ∧ ∀ e, result = .error e →
            Fresh texts Nobody Nobody after) after := by
      intro choice retires
      obtain ⟨owing, threw⟩ := owing.pending retires (rfl : Call.pending after.primary
        (.emit (.payment (.refundCreated id reservation.refund.id))) = some id)
      exact ⟨owing, fun e throws => threw ⟨e, throws⟩⟩
    refine wpE_seq taken_monotone announces (fun e _ ends => ends.2 e rfl) ?_
    rintro _ later ⟨owing, -⟩
    refine wpE_seq taken_monotone (wpE_dropsPayment owing) (fun _ _ fresh => fresh) ?_
    exact fun _ last fresh => wpE_submitRefundToGateway fresh _ _

end Payments
end Commerce
