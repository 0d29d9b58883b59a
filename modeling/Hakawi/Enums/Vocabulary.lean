import Hakawi.Enums.Services

/-!
# No value is rejected

An operation that fits presents to every column values of its type only, whatever it finds. What
does not fit: a refund, whose sum of refunds names a status that no migration has created, two of
the actions of a moderator, two of the filters of the library, and filters and prize types that are
free text.
-/

namespace Enums
open Common Store Effects Commerce Payments Rentals Library

/-- The input of the operation stays in the vocabulary of the database. -/
def Operation.Fits : Operation → Prop
  | payments (.createRefund _ _ _) => False
  | findAllPayments _ params =>
    ∀ text ∈ params.status, text ≠ "" → text ∈ catalog.values .paymentStatus
  | library (.findMyLibrary _ params) => ∀ text ∈ params.status, text ∉ ["reading", "completed"]
  | moderation (.takeAction _ _ dto) => dto.action ∉ [.contentRemoval, .noAction]
  | contests (.write (.distributePrize data _)) => data.prizeType ∈ Contests.PRIZE_TYPES
  | contests (.findAll params) =>
    ∀ text ∈ params.status, text ≠ "" → text ∈ catalog.values .contestStatus
  | _ => True

/-- Whatever the state, the call presents values of the types only. -/
def Call.Proper (call : Call) : Prop :=
  ∀ world : World, ∀ presented ∈ world.presents call, presented.Belongs

section Sold
variable {texts : RowTexts} {platform : Platform} {config : PaymobConfig} {α : Type}

/-- A call that makes no statement of a refund. -/
def Plain : Commerce.Call → Prop
  | .query statement => ¬ OnRefunds statement
  | _ => True

def PaymentsOpPlain : PaymentsOp → Prop
  | .updateRefund _ _ | .reserveRefundCapacity _ | .reconcileRefundCapacity _ => False
  | _ => True

theorem plain_query {statement : Statement} (plain : ¬ OnRefunds statement) :
    OnlyE Plain (Commerce.query statement) := ⟨plain, fun _ => trivial⟩

theorem plain_emit (event : Commerce.Event) : OnlyE Plain (Commerce.emit event) :=
  ⟨trivial, fun _ => trivial⟩

theorem plain_now : OnlyE Plain Commerce.now := ⟨trivial, fun _ => trivial⟩

theorem plain_liftM (result : Except Failure α) : OnlyE Plain (liftM result : Commerce.Method α) :=
  ⟨trivial⟩

theorem plain_cache {D : Type} (p : Caching.CacheCalls D α) : OnlyE Plain (Commerce.cache p) := by
  refine ⟨(Program.only_any p.run).expand _ fun call _ => ?_⟩
  cases call with
  | valkey command => exact ⟨trivial, fun _ => trivial⟩
  | readDatabase => trivial
  | changeDatabase change => trivial

theorem plain_payments {p : Payments.Handler α} (plain : OnlyE PaymentsOpPlain p) :
    OnlyE Plain (Commerce.payments texts p) := by
  have one (statement : Statement) (apart : ¬ OnRefunds statement) :
      (Program.call (.query statement) .done : Program _ Commerce.Call.Result _).Only Plain :=
    ⟨apart, fun _ => trivial⟩
  refine ⟨plain.only.expand _ fun op spares => ?_⟩
  cases op with
  | findById id => exact one _ nofun
  | findByOrderId orderId => exact one _ nofun
  | findByTransactionId transactionId => exact one _ nofun
  | update id patch => exact one _ nofun
  | createTransaction data => exact one _ nofun
  | invalidateKey cacheNamespace id => exact (plain_cache _).only
  | invalidateTags tags => exact (plain_cache _).only
  | emit event => exact (plain_emit _).only
  | getAuthToken => exact ⟨trivial, fun _ => trivial⟩
  | refundAttempt transactionId amountCents => exact ⟨trivial, fun _ => trivial⟩
  | _ => exact spares.elim

theorem opPlain_call {op : PaymentsOp} (plain : PaymentsOpPlain op) :
    OnlyE PaymentsOpPlain (Payments.call op) := ⟨plain, fun _ => trivial⟩

theorem opPlain_liftM (result : Except Failure α) :
    OnlyE PaymentsOpPlain (liftM result : Payments.Handler α) := ⟨trivial⟩

theorem opPlain_invalidatePaymentCache (id : Nat) :
    OnlyE PaymentsOpPlain (Payments.invalidatePaymentCache id) :=
  (opPlain_call (by trivial)).bind fun _ => opPlain_call (by trivial)

theorem opPlain_announce (id : Nat) (status : PaymentStatus) (answer : α) :
    OnlyE PaymentsOpPlain (do
      if status = .completed then Payments.call (.emit (.completed id))
      else if status = .failed then Payments.call (.emit (.failed id))
      return answer : Payments.Handler α) := by
  dsimp only
  split
  · exact (opPlain_call (by trivial)).bind fun _ => onlyE_pure _
  · split
    · exact (opPlain_call (by trivial)).bind fun _ => onlyE_pure _
    · exact onlyE_pure _

theorem opPlain_updateStatus (id : Nat) (status : PaymentStatus) :
    OnlyE PaymentsOpPlain (Payments.updateStatus id status) :=
  (opPlain_call (by trivial)).bind fun _ => (opPlain_liftM _).bind fun _ =>
    (opPlain_liftM _).bind fun _ => (opPlain_call (by trivial)).bind fun _ =>
      (opPlain_invalidatePaymentCache id).bind fun _ => opPlain_announce id status _

theorem opPlain_recordDelivery (payment : Payment) (delivery : Delivery) (rawBody : String) :
    OnlyE PaymentsOpPlain (recordDelivery payment delivery rawBody) :=
  (opPlain_liftM _).bind fun _ => (opPlain_call (by trivial)).bind fun _ =>
    (opPlain_call (by trivial)).bind fun _ => (opPlain_invalidatePaymentCache payment.id).bind fun _ =>
      opPlain_announce payment.id _ _

theorem opPlain_handlePaymobWebhook (rawBody : String) (signature : Option String) :
    OnlyE PaymentsOpPlain (handlePaymobWebhook platform config rawBody signature) := by
  refine (opPlain_liftM _).bind fun delivery => (opPlain_call (by trivial)).bind fun existing => ?_
  dsimp only
  split
  · exact onlyE_pure _
  cases existing with
  | some payment =>
    refine (onlyE_pure _).bind fun found => ?_
    cases found with
    | none => exact onlyE_throw _
    | some payment => exact opPlain_recordDelivery payment delivery rawBody
  | none =>
    refine (opPlain_call (by trivial)).bind fun found => ?_
    cases found with
    | none => exact onlyE_throw _
    | some payment => exact opPlain_recordDelivery payment delivery rawBody

theorem plain_getOrSet {json : RowJson α} {cacheNamespace key tag : Html.Units} {ttl : Int}
    {load : Commerce.Method α} (loads : OnlyE Plain load) :
    OnlyE Plain (Commerce.getOrSet json cacheNamespace key ttl tag load) := by
  refine (plain_cache _).bind fun found => ?_
  cases found with
  | some row => exact onlyE_pure row
  | none =>
    exact (plain_cache _).bind fun generations => loads.bind fun loaded =>
      (plain_cache _).bind fun _ => onlyE_pure loaded

theorem plain_loadPayment (id : Nat) : OnlyE Plain (PaymentsService.loadPayment id) :=
  (plain_query (by nofun)).bind fun _ => plain_liftM _

theorem plain_insertPayment (input : CreatePayment) :
    OnlyE Plain (PaymentsService.insertPayment platform input) :=
  (plain_liftM _).bind fun _ => (plain_liftM _).bind fun _ => (plain_query (by nofun)).bind fun payment =>
    (plain_emit _).bind fun _ => onlyE_pure payment

theorem plain_invalidatePaymentCache (id : Nat) :
    OnlyE Plain (PaymentsService.invalidatePaymentCache texts id) :=
  plain_payments (opPlain_invalidatePaymentCache id)

theorem plain_registerPaymobCheckout (payment : Payment) (amountCents : Int) (currency : String) :
    OnlyE Plain (PaymentsService.registerPaymobCheckout texts payment amountCents currency) := by
  have fails (e : Failure) : OnlyE Plain (do
      PaymentsService.failPaymentAfterGatewayError texts payment.id
      throw (PaymentsService.checkoutUnavailable e) : Commerce.Method String) := by
    refine OnlyE.bind ?_ fun _ => onlyE_throw _
    exact (plain_query (by nofun)).bind fun _ => (plain_invalidatePaymentCache _).bind fun _ =>
      plain_emit _
  have asks : OnlyE Plain (Commerce.createCheckout amountCents currency payment.id) :=
    ⟨trivial, fun _ => trivial⟩
  exact (asks.tryCatch fails).bind fun orderId => (plain_query (by nofun)).bind fun updated =>
    (plain_invalidatePaymentCache _).bind fun _ => onlyE_pure _

theorem plain_createPayment (input : CreatePayment) (initializeGateway : Bool) :
    OnlyE Plain (PaymentsService.createPayment texts platform input initializeGateway) := by
  refine (plain_insertPayment input).bind fun payment => ?_
  split
  · exact onlyE_pure _
  · split
    · exact onlyE_throw _
    · exact (plain_registerPaymobCheckout _ _ _).bind fun _ => onlyE_pure _

theorem plain_paymobInitializePayment (userId : String) (amount : Rat) (currency : String)
    (metadata : Json) : OnlyE Plain
      (PaymentsService.paymobInitializePayment texts platform userId amount currency metadata) :=
  (plain_insertPayment _).bind fun _ => (plain_liftM _).bind fun _ =>
    (plain_registerPaymobCheckout _ _ _).bind fun _ => onlyE_pure _

/-- No request but a refund touches the refunds. -/
theorem plain_request {request : PaymentsRequest}
    (apart : ∀ paymentId amount reason, request ≠ .createRefund paymentId amount reason) :
    OnlyE Plain (request.run texts platform config) := by
  cases request with
  | createPayment input initializeGateway => exact plain_createPayment input initializeGateway
  | getAdminStats => exact plain_query (by nofun)
  | findById id => exact plain_getOrSet (plain_loadPayment id)
  | findByOrderId orderId => exact plain_query (by nofun)
  | findAll params => exact plain_query (by nofun)
  | updateStatus id status => exact plain_payments (opPlain_updateStatus id status)
  | createTransaction paymentId type status amount gatewayResponse =>
    exact (plain_loadPayment paymentId).bind fun _ => plain_query (by nofun)
  | createRefund paymentId amount reason => exact absurd rfl (apart paymentId amount reason)
  | paymobInitializePayment userId amount currency metadata =>
    exact plain_paymobInitializePayment userId amount currency metadata
  | getRefunds paymentId => exact plain_query (by nofun)
  | handlePaymobWebhook rawBody signature =>
    exact plain_payments (opPlain_handlePaymobWebhook rawBody signature)

theorem plain_invalidateRentalCache (id : Nat) : OnlyE Plain (invalidateRentalCache texts id) :=
  plain_cache _

theorem plain_expire (rental : Rental) :
    OnlyE Plain (Commerce.RentalsService.expire texts rental) :=
  (plain_query (by nofun)).bind fun _ => (plain_invalidateRentalCache _).bind fun _ => plain_emit _

theorem plain_library (p : Library.Method α) : OnlyE Plain (Commerce.library texts p) := by
  refine ⟨(Program.only_any p.run).expand _ fun op _ => ?_⟩
  cases op with
  | findPayment id => exact ⟨nofun, fun _ => trivial⟩
  | findBook id => exact ⟨nofun, fun _ => trivial⟩
  | findByUserAndBook userId bookId => exact ⟨nofun, fun _ => trivial⟩
  | findByRentalId rentalId => exact ⟨nofun, fun _ => trivial⟩
  | findById id => exact ⟨nofun, fun _ => trivial⟩
  | create userId bookId rentalId status => exact ⟨nofun, fun _ => trivial⟩
  | delete id => exact ⟨nofun, fun _ => trivial⟩
  | forget id => exact ⟨trivial, fun _ => trivial⟩
  | emit event => exact ⟨trivial, fun _ => trivial⟩

end Sold

section Proper
variable {texts : RowTexts} {platform : Platform} {config : PaymobConfig} {α : Type}

theorem proper_commerce {op : Commerce.Call} (plain : Plain op) : (Call.commerce op).Proper := by
  intro world presented presents
  cases op with
  | query statement => exact belongs_statement plain presents
  | _ => cases presents

theorem belongs_filtered {column : Column} {status : Option String} {presented : Presented}
    (all : ∀ text ∈ status, text ≠ "" → Presented.Belongs ⟨column, text⟩)
    (presents : presented ∈ filtered column status) : presented.Belongs := by
  obtain ⟨text, given, rfl⟩ := List.mem_map.mp presents
  obtain ⟨stated, nonempty⟩ := Option.filter_eq_some_iff.mp (Option.mem_toList.mp given)
  exact all text stated (of_decide_eq_true nonempty)

theorem only_commerce {p : Commerce.Method α} (plain : OnlyE Plain p) :
    OnlyE Call.Proper (commerce p) :=
  ⟨plain.only.expand _ fun _ one => ⟨proper_commerce one, fun _ => trivial⟩⟩

theorem only_query {statement : Query} (proper : ∀ presented ∈ statement.presents,
    presented.Belongs) : OnlyE Call.Proper (query statement) :=
  ⟨fun _ => proper, fun _ => trivial⟩

theorem only_silent {statement : Query} (none : statement.presents = []) :
    OnlyE Call.Proper (query statement) := by
  refine only_query fun presented presents => ?_
  rw [none] at presents
  cases presents

theorem only_liftM (result : Except Failure α) : OnlyE Call.Proper (liftM result : Method α) :=
  ⟨trivial⟩

theorem only_discard {p : Method α} (only : OnlyE Call.Proper p) :
    OnlyE Call.Proper (discard p) := only.bind fun _ => onlyE_pure ()

theorem only_reports (p : Moderation.Handler α) : OnlyE Call.Proper (reports p) :=
  OnlyE.bind ((Program.only_any p.run).attempt fun _ _ =>
    ⟨⟨fun _ _ presents => belongs_reports presents, fun _ => trivial⟩⟩) only_liftM

/-- The calls of a handler that gives no prize, or one of a type. -/
def TypedPrizes (op : Contests.Call) : Prop :=
  ∀ data, op = .createPrize data → data.prizeType ∈ Contests.PRIZE_TYPES

theorem only_contests {p : Contests.Handler α} (typed : OnlyE TypedPrizes p) :
    OnlyE Call.Proper (contests p) :=
  OnlyE.bind (typed.only.attempt fun _ one =>
    ⟨⟨fun _ _ presents => belongs_contests one presents, fun _ => trivial⟩⟩) only_liftM

end Proper

section Contests
open Contests
variable {α β : Type}

theorem typed_call {op : Contests.Call} (other : ∀ data, op ≠ .createPrize data) :
    OnlyE TypedPrizes (Contests.call op) :=
  ⟨fun data same => absurd same (other data), fun _ => trivial⟩

theorem typed_liftM (result : Except Failure α) :
    OnlyE TypedPrizes (liftM result : Contests.Handler α) := ⟨trivial⟩

theorem typed_review (status : SubmissionStatus) (verb : String) (submissionId contestId : Nat)
    (userId : String) : OnlyE TypedPrizes
      (Contests.reviewSubmission status verb submissionId contestId userId) := by
  refine (typed_call (by nofun)).bind fun _ => (typed_liftM _).bind fun _ => ?_
  refine (typed_call (by nofun)).bind fun _ => (typed_liftM _).bind fun _ => ?_
  refine (typed_liftM _).bind fun _ => (typed_liftM _).bind fun _ => ?_
  refine (typed_liftM _).bind fun _ => (typed_call (by nofun)).bind fun _ => ?_
  exact (typed_call (by nofun)).bind fun _ => onlyE_pure _

theorem typed_handler {task : Contests.Task}
    (typed : ∀ data userId, task = .distributePrize data userId → data.prizeType ∈ PRIZE_TYPES) :
    OnlyE TypedPrizes task.handler := by
  cases task with
  | create text createdBy input =>
    refine OnlyE.map _ ((typed_call (by nofun)).bind fun _ => (typed_liftM _).bind fun _ => ?_)
    exact (typed_call (by nofun)).bind fun _ => (typed_call (by nofun)).bind fun _ => onlyE_pure _
  | update id input userId =>
    refine OnlyE.map _ ((typed_call (by nofun)).bind fun _ => (typed_liftM _).bind fun _ => ?_)
    refine (typed_liftM _).bind fun _ => (typed_liftM _).bind fun _ => ?_
    exact (typed_call (by nofun)).bind fun _ => (typed_call (by nofun)).bind fun _ => onlyE_pure _
  | start id userId =>
    refine OnlyE.map _ ((typed_call (by nofun)).bind fun _ => (typed_liftM _).bind fun _ => ?_)
    refine (typed_liftM _).bind fun _ => (typed_liftM _).bind fun _ => ?_
    exact (typed_call (by nofun)).bind fun _ => (typed_call (by nofun)).bind fun _ => onlyE_pure _
  | cancel id userId =>
    refine OnlyE.map _ ((typed_call (by nofun)).bind fun _ => (typed_liftM _).bind fun _ => ?_)
    refine (typed_liftM _).bind fun _ => (typed_liftM _).bind fun _ => ?_
    exact (typed_call (by nofun)).bind fun _ => (typed_call (by nofun)).bind fun _ => onlyE_pure _
  | complete id userId =>
    have told (winning : Option ContestSubmission) : OnlyE TypedPrizes
        (announceWinner id winning) := by
      cases winning with
      | none => exact onlyE_pure _
      | some submission => exact typed_call nofun
    refine OnlyE.map _ ((typed_call (by nofun)).bind fun _ => (typed_liftM _).bind fun _ => ?_)
    refine (typed_liftM _).bind fun _ => (typed_liftM _).bind fun _ => ?_
    refine (typed_call (by nofun)).bind fun winning => (typed_call (by nofun)).bind fun _ => ?_
    exact (told winning).bind fun _ => (typed_call (by nofun)).bind fun _ => onlyE_pure _
  | submitStory contestId authorId storyId userId =>
    refine OnlyE.map _ ((typed_liftM _).bind fun _ => (typed_call (by nofun)).bind fun _ => ?_)
    refine (typed_liftM _).bind fun _ => (typed_liftM _).bind fun _ => ?_
    refine (typed_call (by nofun)).bind fun _ => (typed_liftM _).bind fun _ => ?_
    refine (typed_call (by nofun)).bind fun _ => (typed_liftM _).bind fun _ => ?_
    exact (typed_call (by nofun)).bind fun _ => (typed_call (by nofun)).bind fun _ => onlyE_pure _
  | approveSubmission submissionId contestId userId => exact (typed_review _ _ _ _ _).map _
  | rejectSubmission submissionId contestId userId => exact (typed_review _ _ _ _ _).map _
  | castVote contestId submissionId userId =>
    refine OnlyE.map _ ((typed_call (by nofun)).bind fun _ => (typed_liftM _).bind fun _ => ?_)
    refine (typed_liftM _).bind fun _ => (typed_call (by nofun)).bind fun _ => ?_
    refine (typed_liftM _).bind fun _ => (typed_call (by nofun)).bind fun _ => ?_
    refine (typed_liftM _).bind fun _ => (typed_liftM _).bind fun _ => ?_
    refine (typed_liftM _).bind fun _ => (typed_call (by nofun)).bind fun _ => ?_
    refine (typed_liftM _).bind fun _ => (typed_call (by nofun)).bind fun _ => ?_
    exact (typed_liftM _).bind fun _ => (typed_call (by nofun)).bind fun _ => onlyE_pure _
  | selectWinner contestId submissionId winnerId userId =>
    refine OnlyE.map _ ((typed_call (by nofun)).bind fun _ => (typed_liftM _).bind fun _ => ?_)
    refine (typed_liftM _).bind fun _ => (typed_liftM _).bind fun _ => ?_
    refine (typed_call (by nofun)).bind fun _ => (typed_liftM _).bind fun _ => ?_
    refine (typed_liftM _).bind fun _ => (typed_call (by nofun)).bind fun _ => ?_
    exact (typed_call (by nofun)).bind fun _ => (typed_call (by nofun)).bind fun _ => onlyE_pure _
  | distributePrize data userId =>
    have writes : OnlyE TypedPrizes (Contests.call (.createPrize data)) := by
      refine ⟨?_, fun _ => trivial⟩
      rintro _ ⟨⟩
      exact typed data userId rfl
    refine OnlyE.map _ ((typed_call (by nofun)).bind fun _ => (typed_liftM _).bind fun _ => ?_)
    refine (typed_liftM _).bind fun _ => (typed_liftM _).bind fun _ => ?_
    refine (typed_liftM _).bind fun _ => writes.bind fun _ => (typed_liftM _).bind fun _ => ?_
    exact (typed_call (by nofun)).bind fun _ => onlyE_pure _

end Contests

section Actions
variable {α : Type}

def KnownActions (op : Moderation.Restrictions.Call) : Prop :=
  ∀ reportId adminId input, op = .insertModerationAction reportId adminId input →
    input.action ∈ [.warn, .mute, .ban]

theorem only_actions {p : Moderation.Restrictions.Handler α} (known : OnlyE KnownActions p) :
    OnlyE Call.Proper (actions p) :=
  OnlyE.bind (known.only.attempt fun _ one =>
    ⟨⟨fun _ _ presents => belongs_actions one presents, fun _ => trivial⟩⟩) only_liftM

theorem known_call {op : Moderation.Restrictions.Call}
    (other : ∀ reportId adminId input, op ≠ .insertModerationAction reportId adminId input) :
    OnlyE KnownActions (Moderation.Restrictions.call op) :=
  ⟨fun reportId adminId input same => absurd same (other reportId adminId input), fun _ => trivial⟩

theorem known_liftM (result : Except Failure α) :
    OnlyE KnownActions (liftM result : Moderation.Restrictions.Handler α) := ⟨trivial⟩

open Moderation.Restrictions Moderation.Restrictions.ModerationService in
theorem known_takeAction {input : ModerationActionDto} (reportId : Nat) (adminId : String)
    (known : input.action ∈ [.warn, .mute, .ban]) :
    OnlyE KnownActions (takeAction reportId adminId input) := by
  have records : OnlyE KnownActions
      (Moderation.Restrictions.call (.insertModerationAction reportId adminId input)) := by
    refine ⟨?_, fun _ => trivial⟩
    rintro _ _ _ ⟨⟩
    exact known
  have restricts : OnlyE KnownActions (restrict adminId input) := by
    unfold restrict
    cases input.targetUserId with
    | none => exact onlyE_pure ()
    | some userId =>
      dsimp only
      split
      · exact (known_call (by nofun)).bind fun _ => known_call (by nofun)
      · exact onlyE_pure ()
  have asks (report : Moderation.Report) : OnlyE KnownActions
      (requestContentRemoval report adminId input.reason input.action) := by
    unfold requestContentRemoval
    split
    · exact known_call nofun
    · exact onlyE_pure ()
  refine (known_call (by nofun)).bind fun _ => (known_liftM _).bind fun report => ?_
  refine records.bind fun _ => (known_liftM _).bind fun _ => restricts.bind fun _ => ?_
  exact (known_call (by nofun)).bind fun _ => (asks report).bind fun _ => onlyE_pure _

end Actions

section Operations
variable {texts : RowTexts} {platform : Platform} {config : PaymobConfig}

theorem only_rentals (request : RentalsRequest) :
    OnlyE Call.Proper (request.run texts platform) := by
  cases request with
  | findById id userId =>
    have loads : OnlyE Plain (Commerce.RentalsService.loadRental id userId) :=
      (plain_query (by nofun)).bind fun _ => plain_liftM _
    refine only_discard (only_commerce ((plain_getOrSet loads).bind fun rental => ?_))
    split
    · exact onlyE_throw _
    · exact onlyE_pure _
  | findMyRentals userId params =>
    refine only_discard (only_query fun presented => belongs_filtered fun text given _ => ?_)
    have listed := params.valid text given
    simp only [RENTAL_QUERY_STATUSES, List.mem_cons, List.not_mem_nil, or_false] at listed
    rcases listed with rfl | rfl | rfl | rfl <;> decide
  | findActiveRentalForBook userId bookId =>
    refine only_discard (only_commerce ((plain_query (by nofun)).bind fun found => ?_))
    cases found with
    | none => exact onlyE_pure _
    | some rental =>
      dsimp only
      split
      · exact onlyE_pure _
      · split
        · exact onlyE_pure _
        · refine plain_now.bind fun time => ?_
          split <;> exact onlyE_pure _
  | extendRental id extensionDays userId paymentMethod =>
    exact only_discard (only_commerce ((plain_query (by nofun)).bind fun _ =>
      (plain_liftM _).bind fun _ => plain_paymobInitializePayment _ _ _ _))
  | quoteExtension id extensionDays userId =>
    exact only_discard ((only_commerce (plain_query (by nofun))).bind fun _ =>
      (only_liftM _).bind fun _ => onlyE_pure _)
  | returnRental id userId =>
    refine only_discard (only_commerce ((plain_query (by nofun)).bind fun _ =>
      (plain_liftM _).bind fun _ => ?_))
    split
    · exact onlyE_throw _
    · exact plain_now.bind fun _ => (plain_query (by nofun)).bind fun _ =>
        (plain_invalidateRentalCache _).bind fun _ => (plain_emit _).bind fun _ => onlyE_pure _
  | findOverdue =>
    exact only_discard (only_commerce (plain_now.bind fun _ => plain_query (by nofun)))
  | checkAndExpireOverdue =>
    have expires (rentals : List Rental) :
        OnlyE Plain (forM rentals (Commerce.RentalsService.expire texts)) := by
      induction rentals with
      | nil => exact onlyE_pure ()
      | cons rental rest ih =>
        rw [List.forM_cons]
        exact (plain_expire rental).bind fun _ => ih
    exact only_commerce (plain_now.bind fun _ => (plain_query (by nofun)).bind expires)

theorem only_library {request : LibraryRequest} (fits : (Operation.library request).Fits) :
    OnlyE Call.Proper (request.run texts) := by
  have taken {α : Type} (p : Library.Method α) : OnlyE Call.Proper (ofLibrary texts p) :=
    only_discard (only_commerce (plain_library p))
  cases request with
  | claimFreeBook userId bookId => exact taken _
  | addToLibrary userId bookId rentalId => exact taken _
  | findMyLibrary userId params =>
    refine only_discard (only_query fun presented => belongs_filtered fun text given _ => ?_)
    have listed := params.valid text given
    have apart := fits text given
    simp only [LIBRARY_QUERY_STATUSES, List.mem_cons, List.not_mem_nil, or_false] at listed apart
    rcases listed with rfl | rfl | rfl | rfl
    · decide
    · decide
    · exact absurd (Or.inl rfl) apart
    · exact absurd (Or.inr rfl) apart
  | count userId => exact only_discard (only_silent rfl)
  | accessItem id userId =>
    refine only_discard ((only_commerce (plain_library _)).bind fun found => ?_)
    cases found with
    | none => exact onlyE_throw _
    | some item =>
      dsimp only
      split
      · exact onlyE_throw _
      · exact only_silent rfl
  | removeFromLibrary id userId => exact taken _
  | removeBookForRefund userId bookId => exact taken _

theorem only_moderation {request : ModerationRequest}
    (fits : (Operation.moderation request).Fits) : OnlyE Call.Proper request.run := by
  cases request with
  | createReport reporterId dto => exact only_discard (only_reports _)
  | findAllReports params =>
    refine only_discard (only_query fun presented presents => ?_)
    obtain ⟨status, -, rfl⟩ := List.mem_map.mp presents
    exact belongs_report status
  | updateReportStatus id status =>
    have updates : OnlyE Call.Proper (query (.updateReport id status)) := by
      refine only_query fun presented presents => ?_
      rw [List.mem_singleton.mp presents]
      exact belongs_report status
    refine only_discard ((only_silent rfl).bind fun found => ?_)
    cases found with
    | none => exact onlyE_throw _
    | some existing =>
      refine updates.bind fun updated => ?_
      cases updated with
      | none => exact onlyE_throw _
      | some report => exact onlyE_pure _
  | takeAction reportId adminId dto =>
    refine only_discard (only_actions (known_takeAction reportId adminId ?_))
    have apart : dto.action ∉ [.contentRemoval, .noAction] := fits
    revert apart
    cases dto.action <;> decide
  | checkAutoEscalation targetId => exact only_reports _
  | autoEscalateReports => exact only_discard (only_reports _)

theorem only_loadContest (id : Nat) : OnlyE Call.Proper (ContestsService.loadContest id) :=
  (only_contests (typed_call (by nofun))).bind fun _ => only_liftM _

theorem only_ownContest (contestId : Nat) (publisherId : String) :
    OnlyE Call.Proper (ContestsService.ownContest contestId publisherId) := by
  refine (only_loadContest contestId).bind fun contest => ?_
  split
  · exact onlyE_throw _
  · exact onlyE_pure _

theorem only_contestsRequest {request : ContestsRequest}
    (fits : (Operation.contests request).Fits) : OnlyE Call.Proper request.run := by
  cases request with
  | write task =>
    refine only_discard (only_contests (typed_handler ?_))
    rintro data userId rfl
    exact fits
  | findById id => exact only_discard (only_loadContest id)
  | findAll params =>
    refine only_discard (only_query fun presented => belongs_filtered fun text given nonempty => ?_)
    rintro _ ⟨⟩
    exact fits text given nonempty
  | getSubmissions contestId page limit => exact only_discard (only_silent rfl)
  | getVotes contestId submissionId page limit =>
    refine only_discard ?_
    cases submissionId with
    | some submissionId =>
      exact (only_contests (typed_call (by nofun))).bind fun _ => (only_liftM _).bind fun _ =>
        (only_silent rfl).bind fun _ => onlyE_pure _
    | none => exact (only_silent rfl).bind fun _ => (only_silent rfl).bind fun _ => onlyE_pure _
  | getPrizes contestId =>
    exact only_discard ((only_loadContest contestId).bind fun _ => only_silent rfl)
  | getPublisherStats publisherId =>
    have adds (stats : ContestsService.PublisherStats) (contest : Contests.Contest) :
        OnlyE Call.Proper (ContestsService.addContest stats contest) :=
      (only_silent rfl).bind fun _ => (only_silent rfl).bind fun _ => (only_silent rfl).bind fun _ =>
        onlyE_pure _
    exact only_discard ((only_silent rfl).bind fun _ => OnlyE.foldlM adds _ _)
  | getPublisherSubmissionsOverview contestId publisherId =>
    have counts (overview : List (Contests.ContestSubmission × Nat))
        (submission : Contests.ContestSubmission) :
        OnlyE Call.Proper (ContestsService.countVotes overview submission) :=
      (only_silent rfl).bind fun _ => onlyE_pure _
    exact only_discard ((only_ownContest contestId publisherId).bind fun _ =>
      (only_silent rfl).bind fun _ => OnlyE.foldlM counts _ _)
  | getPublisherVotesOverview contestId publisherId =>
    exact only_discard ((only_ownContest contestId publisherId).bind fun _ => only_silent rfl)

theorem only_run {operation : Operation} (fits : operation.Fits) :
    OnlyE Call.Proper (operation.run texts platform config) := by
  cases operation with
  | payments request =>
    refine only_discard (only_commerce (plain_request ?_))
    rintro paymentId amount reason rfl
    exact fits
  | findAllPayments userId params =>
    refine only_discard (only_query fun presented => belongs_filtered fun text given nonempty => ?_)
    rintro _ ⟨⟩
    exact fits text given nonempty
  | rentals request => exact only_rentals request
  | library request => exact only_library fits
  | moderation request => exact only_moderation fits
  | contests request => exact only_contestsRequest fits

/-- A statement whose values are all of their types is not rejected. -/
theorem rejected_exec (schema : TransactionsSchema) (choice : Choice) {world : World} {call : Call}
    (proper : ∀ presented ∈ world.presents call, presented.Belongs) :
    (world.exec schema choice call).2.rejected = world.rejected := by
  have none : (world.presents call).find?
      (fun presented => ¬ presented.Belongs ∧ World.reached choice call) = none := by
    refine List.find?_eq_none.mpr fun presented presents => ?_
    simp [proper presented presents]
  rw [World.exec, none]
  cases call with
  | query statement => cases statement <;> rfl
  | _ => rfl

/-- Operations that fit, in any number and however they interleave, hand no value to a column that
is not one of its type, and the database rejects none. -/
theorem vocabulary_kept (schema : TransactionsSchema) (texts : RowTexts) (platform : Platform)
    (config : PaymobConfig) {world : World} (clean : world.rejected = [])
    {operations : List Operation} (fits : ∀ operation ∈ operations, operation.Fits)
    (schedule : List (Nat × Choice)) :
    Pool.EachCall (World.exec schema)
        (fun _ world call => ∀ presented ∈ world.presents call, presented.Belongs) schedule
        (pool texts platform config world operations) ∧
      ((pool texts platform config world operations).run (World.exec schema)
        schedule).state.rejected = [] := by
  have proper : ∀ p ∈ (pool texts platform config world operations).threads,
      p.Only Call.Proper := by
    intro p member
    obtain ⟨operation, among, rfl⟩ := List.mem_map.mp member
    exact (only_run (fits operation among)).only
  have each : Pool.EachCall (World.exec schema)
      (fun _ world call => ∀ presented ∈ world.presents call, presented.Belongs) schedule
      (pool texts platform config world operations) :=
    Pool.eachCall_of_only (World.exec schema) (fun _ world _ one => one world) proper schedule
  have kept (choice : Choice) (world : World) (call : Call) (none : world.rejected = [])
      (one : ∀ presented ∈ world.presents call, presented.Belongs) :
      (world.exec schema choice call).2.rejected = [] :=
    (rejected_exec schema choice one).trans none
  exact ⟨each, Pool.eachCall_invariant (World.exec schema) kept clean each⟩

end Operations

/-- The schema as the migrations leave it, and no row. -/
def World.empty : World where
  commerce :=
    { clock := 0
      primary := { ledger := .empty, rentals := ⟨.empty, .empty⟩, items := .empty, books := [] }
      cache := .empty
      emitted := []
      gatewayRefunds := [] }
  contests := ⟨0, .empty, []⟩
  reports := ⟨0, .empty, []⟩
  actions :=
    { clock := 0, users := ["admin", "reader"], reports := .empty, actions := .empty
      restrictions := [], pending := [], cache := .empty }
  rejected := []

/-- Turns of one operation, in which nothing goes wrong. -/
def turns (operation count : Nat) : List (Nat × Choice) := List.replicate count (operation, {})

/-- A report and what an administrator does about it. -/
def reportedAndBanned : List Operation :=
  [.moderation (.createReport "reader" ⟨"troll", .user, "spam", none⟩),
    .moderation (.takeAction 0 "admin" ⟨.ban, "spam", none, some "reader"⟩)]

theorem ban_kept : Pool.EachCall (World.exec paymentTransactionsP)
      (fun _ world call => ∀ presented ∈ world.presents call, presented.Belongs)
      (turns 0 4 ++ turns 1 5)
      (pool .epoch .plain .default World.empty reportedAndBanned) ∧
    ((pool .epoch .plain .default World.empty reportedAndBanned).run
      (World.exec paymentTransactionsP)
      (turns 0 4 ++ turns 1 5)).state.rejected = [] := by
  refine vocabulary_kept paymentTransactionsP .epoch .plain .default rfl ?_ _
  intro operation among
  simp only [reportedAndBanned, List.mem_cons, List.not_mem_nil, or_false] at among
  rcases among with rfl | rfl
  · trivial
  · change Moderation.Restrictions.Action.ban ∉ [.contentRemoval, .noAction]
    decide

/-- A payment that is completed by hand, and then refunded. -/
def paidAndRefunded : List Operation :=
  [.payments (.createPayment { userId := "reader", amount := 100, paymentMethod := "card" } false),
    .payments (.updateStatus 0 .completed), .payments (.createRefund 0 100 none)]

/-- The refund ends with the sum of the refunds so far: `processed` is no `payment_status`. -/
theorem refund_rejected : ¬ ∀ (operations : List Operation) (schedule : List (Nat × Choice)),
    ((pool .epoch .plain .default World.empty operations).run (World.exec paymentTransactionsP)
      schedule).state.rejected = [] := by
  intro always
  have kept := always paidAndRefunded
    (turns 0 2 ++ turns 1 12 ++ turns 2 2)
  revert kept
  decide

end Enums
