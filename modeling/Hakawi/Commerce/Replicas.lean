import Hakawi.Commerce.Services

/-!
# What is decided from a replica

Payments are read on the primary; the shelf, the rentals and the books are read wherever the
router sends the query. What a replica holds makes no difference to an operation exactly when
none of its reads is routed, and among the operations that decide what a reader has paid for
those are the ones of the payments service, but for the list of refunds.
-/

namespace Commerce
open Html Common Effects Caching Payments Rentals Library Store

/-- What decides what a reader has paid for, and what the reader gets for it. -/
inductive Operation where
  | payments (request : PaymentsRequest)
  | libraryPaymentCompleted (paymentId : Nat)
  | libraryRefundCompleted (paymentId : Nat)
  | rentalCreated (rentalId : Nat) (userId bookId : String)
  | rentalReturned (rentalId : Nat)
  | rentalExpired (rentalId : Nat)
  | rentalsPaymentCompleted (paymentId : Nat)
  | rentalsRefundCompleted (paymentId : Nat)
  | purchase (userId bookId : String) (paymentMethod : Option String)
  | rent (userId bookId : String) (durationDays : Int) (paymentMethod : Option String)
  | recordDownload (id userId : String)

namespace Operation

abbrev Answer : Operation → Type
  | payments request => request.Answer
  | libraryPaymentCompleted _ | libraryRefundCompleted _ | rentalCreated _ _ _ | rentalReturned _ |
    rentalExpired _ | rentalsPaymentCompleted _ | rentalsRefundCompleted _ => Unit
  | purchase _ _ _ | rent _ _ _ _ => PaymobCheckoutResponse
  | recordDownload _ _ => BookRow

variable (schema : TransactionsSchema) (texts : RowTexts) (platform : Platform)
  (config : PaymobConfig)

def run : (operation : Operation) → Method operation.Answer
  | payments request => request.run texts platform config
  | libraryPaymentCompleted paymentId =>
    library texts (LibraryEventHandler.handlePaymentCompleted paymentId)
  | libraryRefundCompleted paymentId =>
    library texts (LibraryEventHandler.handleRefundCompleted paymentId)
  | rentalCreated rentalId userId bookId =>
    library texts (LibraryEventHandler.handleRentalCreated rentalId userId bookId)
  | rentalReturned rentalId => library texts (LibraryEventHandler.handleRentalReturned rentalId)
  | rentalExpired rentalId => library texts (LibraryEventHandler.handleRentalExpired rentalId)
  | rentalsPaymentCompleted paymentId => RentalsEventHandler.handlePaymentCompleted paymentId
  | rentalsRefundCompleted paymentId => RentalsEventHandler.handleRefundCompleted texts paymentId
  | purchase userId bookId paymentMethod =>
    BooksService.purchase texts platform userId bookId paymentMethod
  | rent userId bookId durationDays paymentMethod =>
    BooksService.rent texts platform userId bookId durationDays paymentMethod
  | recordDownload id userId => BooksService.recordDownload id userId

/-- The answer, and everything that is written and announced, given what the replica holds that
each read is sent to. -/
def outcome (operation : Operation) (world : World) (choices : Nat → Choice)
    (replicas : Nat → Option Database) : Except Failure operation.Answer × World :=
  (operation.run texts platform config).run.eval (World.exec schema)
    (fun n => (choices n).servedBy (replicas n)) world

/-- Each read that is sent to a replica finds there an earlier state of the primary. -/
def Lags (operation : Operation) (world : World) (choices : Nat → Choice)
    (replicas : Nat → Option Database) : Prop :=
  (operation.run texts platform config).run.Each (World.exec schema)
    (fun choice world _ => ∀ replica ∈ choice.served, replica.Precedes schema world.primary)
    (fun n => (choices n).servedBy (replicas n)) world

/-- Whatever the replicas hold, the operation answers the same and writes the same. -/
def Independent (operation : Operation) : Prop :=
  ∀ world choices replicas replicas', operation.Lags schema texts platform config world choices
      replicas → operation.Lags schema texts platform config world choices replicas' →
    operation.outcome schema texts platform config world choices replicas =
      operation.outcome schema texts platform config world choices replicas'

/-- An operation of the payments service other than `getRefunds`. -/
def OnPrimary : Operation → Prop
  | payments (.getRefunds _) => False
  | payments _ => True
  | _ => False

instance (operation : Operation) : Decidable operation.OnPrimary := by
  unfold OnPrimary
  split <;> infer_instance

end Operation

section Primary
variable {schema : TransactionsSchema} {texts : RowTexts} {platform : Platform}
  {config : PaymobConfig} {α β : Type}

/-- A call that the router does not send to a replica. -/
def Call.OnPrimary : Call → Prop
  | .query statement => ¬ statement.Routed
  | _ => True

theorem exec_onPrimary {call : Call} (primary : call.OnPrimary) (choice : Choice)
    (replica replica' : Option Database) (world : World) :
    World.exec schema (choice.servedBy replica) world call =
      World.exec schema (choice.servedBy replica') world call := by
  have same : (World.perform schema (choice.servedBy replica)
      { world with clock := world.clock + choice.elapsed } call) =
      World.perform schema (choice.servedBy replica')
        { world with clock := world.clock + choice.elapsed } call := by
    cases call with
    | query statement =>
      have responds (replica : Option Database) (world : World) :
          world.respond schema (choice.servedBy replica) statement =
            world.primary.apply schema choice.pick statement := by
        cases replica with
        | none => rfl
        | some stored => exact if_neg primary
      simp only [World.perform, responds]
    | _ => rfl
  have pace : (choice.servedBy replica).elapsed = choice.elapsed := rfl
  have fault : (choice.servedBy replica).fault = choice.fault := rfl
  have pace' : (choice.servedBy replica').elapsed = choice.elapsed := rfl
  have fault' : (choice.servedBy replica').fault = choice.fault := rfl
  simp only [World.exec, pace, pace', fault, fault', same]

theorem onPrimary_query {statement : Statement} (elsewhere : statement.via ≠ (.db, .select)) :
    OnlyE Call.OnPrimary (query statement) := ⟨elsewhere, fun _ => trivial⟩

theorem onPrimary_emit (event : Event) : OnlyE Call.OnPrimary (emit event) :=
  ⟨trivial, fun _ => trivial⟩

theorem onPrimary_liftM (result : Except Failure α) :
    OnlyE Call.OnPrimary (liftM result : Method α) := ⟨trivial⟩

/-- The cache is one for all. -/
theorem onPrimary_cache {D : Type} (p : CacheCalls D α) : OnlyE Call.OnPrimary (cache p) := by
  refine ⟨(Program.only_any p.run).expand _ fun call _ => ?_⟩
  cases call with
  | valkey command => exact ⟨trivial, fun _ => trivial⟩
  | readDatabase => trivial
  | changeDatabase change => trivial

/-- The payments repository reads on the primary. -/
theorem onPrimary_payments (p : Payments.Handler α) : OnlyE Call.OnPrimary (payments texts p) := by
  have apart : ∀ statement, statement.via ≠ (Handle.db, SqlOperation.select) →
      (Program.call (.query statement) .done : Program Call Call.Result _).Only Call.OnPrimary :=
    fun statement elsewhere => ⟨elsewhere, fun _ => trivial⟩
  refine ⟨(Program.only_any p.run).expand _ fun op _ => ?_⟩
  cases op with
  | findById id => exact apart _ nofun
  | findByOrderId orderId => exact apart _ nofun
  | findByTransactionId transactionId => exact apart _ nofun
  | update id patch => exact apart _ nofun
  | createTransaction data => exact apart _ nofun
  | updateRefund id patch => exact apart _ nofun
  | reserveRefundCapacity input => exact apart _ nofun
  | reconcileRefundCapacity paymentId => exact apart _ nofun
  | invalidateKey cacheNamespace id => exact (onPrimary_cache _).only
  | invalidateTags tags => exact (onPrimary_cache _).only
  | emit event => exact (onPrimary_emit _).only
  | getAuthToken => exact ⟨trivial, fun _ => trivial⟩
  | refundAttempt transactionId amountCents => exact ⟨trivial, fun _ => trivial⟩

theorem onPrimary_getOrSet {json : RowJson α} {cacheNamespace key tag : Units} {ttl : Int}
    {load : Method α} (loads : OnlyE Call.OnPrimary load) :
    OnlyE Call.OnPrimary (getOrSet json cacheNamespace key ttl tag load) := by
  refine (onPrimary_cache _).bind fun found => ?_
  cases found with
  | some row => exact onlyE_pure row
  | none =>
    exact (onPrimary_cache _).bind fun generations => loads.bind fun loaded =>
      (onPrimary_cache _).bind fun _ => onlyE_pure loaded

theorem onPrimary_loadPayment (id : Nat) :
    OnlyE Call.OnPrimary (PaymentsService.loadPayment id) :=
  (onPrimary_query (by nofun)).bind fun found => onPrimary_liftM (existingPayment found)

theorem onPrimary_insertPayment (input : CreatePayment) :
    OnlyE Call.OnPrimary (PaymentsService.insertPayment platform input) :=
  (onPrimary_liftM _).bind fun _ => (onPrimary_liftM _).bind fun _ =>
    (onPrimary_query (by nofun)).bind fun payment => (onPrimary_emit _).bind fun _ =>
      onlyE_pure payment

theorem onPrimary_registerPaymobCheckout (payment : Payment) (amountCents : Int)
    (currency : String) : OnlyE Call.OnPrimary
      (PaymentsService.registerPaymobCheckout texts payment amountCents currency) := by
  have fails (e : Failure) : OnlyE Call.OnPrimary (do
      PaymentsService.failPaymentAfterGatewayError texts payment.id
      throw (PaymentsService.checkoutUnavailable e) : Method String) := by
    refine OnlyE.bind ?_ fun _ => onlyE_throw _
    exact (onPrimary_query (by nofun)).bind fun _ => (onPrimary_payments _).bind fun _ =>
      onPrimary_emit _
  have asks : OnlyE Call.OnPrimary (createCheckout amountCents currency payment.id) :=
    ⟨trivial, fun _ => trivial⟩
  exact (asks.tryCatch fails).bind fun orderId => (onPrimary_query (by nofun)).bind fun updated =>
    (onPrimary_payments _).bind fun _ => onlyE_pure _

/-- No read of the payments service is routed, apart from the list of refunds. -/
theorem onPrimary_run {operation : Operation} (primary : operation.OnPrimary) :
    OnlyE Call.OnPrimary (operation.run texts platform config) := by
  cases operation with
  | payments request =>
    cases request with
    | createPayment input initializeGateway =>
      refine (onPrimary_insertPayment input).bind fun payment => ?_
      split
      · exact onlyE_pure _
      · split
        · exact onlyE_throw _
        · exact (onPrimary_registerPaymobCheckout _ _ _).bind fun _ => onlyE_pure _
    | getAdminStats => exact onPrimary_query nofun
    | findById id => exact onPrimary_getOrSet (onPrimary_loadPayment id)
    | findByOrderId orderId => exact onPrimary_query nofun
    | findAll params => exact onPrimary_query nofun
    | updateStatus id status => exact onPrimary_payments _
    | createTransaction paymentId type status amount gatewayResponse =>
      exact (onPrimary_loadPayment paymentId).bind fun _ => onPrimary_query nofun
    | createRefund paymentId amount reason => exact onPrimary_payments _
    | paymobInitializePayment userId amount currency metadata =>
      exact (onPrimary_insertPayment _).bind fun payment => (onPrimary_liftM _).bind fun _ =>
        (onPrimary_registerPaymobCheckout _ _ _).bind fun _ => onlyE_pure _
    | getRefunds paymentId => exact primary.elim
    | handlePaymobWebhook rawBody signature => exact onPrimary_payments _
  | _ => exact primary.elim

theorem independent_of_onPrimary {operation : Operation} (primary : operation.OnPrimary) :
    operation.Independent schema texts platform config := by
  intro world choices replicas replicas' _ _
  exact (onPrimary_run primary).only.eval_congr
    (fun n world call on => exec_onPrimary on (choices n) (replicas n) (replicas' n) world) world

end Primary

section Replicas
variable {schema : TransactionsSchema} {texts : RowTexts} {platform : Platform}
  {config : PaymobConfig} {operation : Operation} {old new : Database}

theorem precedes_respond {world : World} (earlier : old.Precedes schema world.primary)
    (choice : Choice) (statement : Statement) :
    old.Precedes schema (world.respond schema choice statement).2 := by
  have writes : old.Precedes schema (world.primary.apply schema choice.pick statement).2 :=
    .tail earlier ⟨choice.pick, statement, rfl⟩
  rw [World.respond]
  cases choice.served with
  | none => exact writes
  | some replica =>
    dsimp only
    split
    · exact earlier
    · exact writes

/-- The primary only moves on. -/
theorem precedes_exec {world : World} (earlier : old.Precedes schema world.primary)
    (choice : Choice) (call : Call) :
    old.Precedes schema (World.exec schema choice world call).2.primary := by
  have performs : old.Precedes schema (World.perform schema choice
      { world with clock := world.clock + choice.elapsed } call).2.primary := by
    cases call with
    | query statement =>
      have later : old.Precedes schema
          { world with clock := world.clock + choice.elapsed : World }.primary := earlier
      exact precedes_respond later choice statement
    | refundAttempt transactionId amountCents =>
      simp only [World.perform]
      split <;> exact earlier
    | _ => exact earlier
  rw [World.exec]
  cases choice.fault with
  | none => exact performs
  | some fault =>
    dsimp only
    split
    · exact performs
    · exact earlier

/-- One replica that no longer follows, for all reads. -/
theorem lags_stuck {world : World} (earlier : old.Precedes schema world.primary) :
    operation.Lags schema texts platform config world (fun _ => {}) fun _ => some old := by
  rw [Operation.Lags]
  generalize (operation.run texts platform config).run = program
  induction program generalizing world with
  | done answer => trivial
  | call call next ih =>
    refine ⟨fun replica served => ?_, ih _ (precedes_exec earlier _ call)⟩
    cases served
    exact earlier

theorem lags_primary (world : World) :
    operation.Lags schema texts platform config world (fun _ => {}) fun _ => none := by
  rw [Operation.Lags]
  generalize (operation.run texts platform config).run = program
  induction program generalizing world with
  | done answer => trivial
  | call call next ih =>
    refine ⟨fun replica served => ?_, ih _ _⟩
    cases served

end Replicas

section Stale
variable (schema : TransactionsSchema) (texts : RowTexts) {platform : Platform}
  {config : PaymobConfig}

/-- Nothing goes wrong and no time passes; one replica serves all reads, or the primary does. -/
def calmly (replica : Option Database) : Choice := Choice.servedBy {} replica

abbrev ServedBy (replica : Option Database) : Program.OpSpec Call Call.Result World :=
  Program.execSpec (World.exec schema) (· = calmly replica)

def LibraryServedBy (replica : Option Database) :
    Program.OpSpec Library.Call Library.Call.Answer World :=
  fun call Q world => (libraryCall texts call).wp (ServedBy schema replica) Q world

variable {schema texts}

theorem wpE_library {α : Type} {p : Library.Method α} {Q : Except Failure α → World → Prop}
    {replica : Option Database} {world : World}
    (h : wpE (LibraryServedBy schema texts replica) p Q world) :
    wpE (ServedBy schema replica) (library texts p) Q world := by
  rw [wpE, library, ExceptT.run_mk, Program.wp_expand]
  exact h

@[simp] theorem exec_calmly (replica : Option Database) (world : World) (call : Call) :
    World.exec schema (calmly replica) world call =
      World.perform schema (calmly replica) world call := by
  have still : world.clock + ((calmly replica).elapsed : Int) = world.clock := Int.add_zero _
  simp only [World.exec, still]
  rfl

@[simp] theorem servedBy_apply (replica : Option Database) (call : Call)
    (Q : call.Result → World → Prop) (world : World) : ServedBy schema replica call Q world ↔
      Q (World.perform schema (calmly replica) world call).1
        (World.perform schema (calmly replica) world call).2 := by
  simp only [ServedBy, Program.execSpec, forall_eq, exec_calmly]

@[simp] theorem libraryServedBy_apply (replica : Option Database) (call : Library.Call)
    (Q : call.Answer → World → Prop) (world : World) :
    LibraryServedBy schema texts replica call Q world ↔
      (libraryCall texts call).wp (ServedBy schema replica) Q world := Iff.rfl

@[simp] theorem respond_none (world : World) (statement : Statement) :
    world.respond schema (calmly none) statement = world.primary.apply schema 0 statement := rfl

@[simp] theorem respond_some (replica : Database) (world : World) (statement : Statement) :
    world.respond schema (calmly (some replica)) statement =
      if statement.Routed then ((replica.apply schema 0 statement).1, world.primary)
      else world.primary.apply schema 0 statement := rfl

/-- At the beginning of time, with an empty cache. -/
def Database.opened (db : Database) : World := ⟨0, db, .empty, [], []⟩

/-- After one more write, the answer or what is announced tells whether the replica has it. -/
theorem not_independent {operation : Operation} (old : Database) (statement : Statement)
    {new : Database} (written : (old.apply schema 0 statement).2 = new)
    {P : Except Failure operation.Answer → World → Prop}
    (stale : wpE (ServedBy schema (some old)) (operation.run texts platform config) P new.opened)
    (fresh : wpE (ServedBy schema none) (operation.run texts platform config)
      (fun result after => ¬ P result after) new.opened) :
    ¬ operation.Independent schema texts platform config := by
  intro independent
  have earlier : old.Precedes schema new.opened.primary :=
    .single ⟨0, statement, written.symm⟩
  have same : (operation.run texts platform config).run.eval (World.exec schema)
      (fun _ => calmly (some old)) new.opened =
        (operation.run texts platform config).run.eval (World.exec schema)
          (fun _ => calmly none) new.opened :=
    independent new.opened (fun _ => {}) (fun _ => some old) (fun _ => none)
      (lags_stuck earlier) (lags_primary new.opened)
  have lagging : P _ _ := Program.eval_of_wp stale fun _ => rfl
  have current : ¬ P _ _ := Program.eval_of_wp fresh fun _ => rfl
  rw [same] at lagging
  exact current lagging

/-- A payment of 100 minor units that went through. -/
def paid (id : Nat) (metadata : Json) : Payment :=
  { id, userId := "reader", amount := 100, currency := "EGP", status := .completed
    paymobOrderId := none, paymobPaymentId := none, paymobTransactionId := none
    metadata := some metadata, deletedAt := none }

/-- The payment, and nothing that was granted for it. -/
def sold (id : Nat) (metadata : Json) : Database where
  ledger := { Ledger.empty with
    payments := ⟨[paid id metadata], id + 1, by simp, by simp [paid]⟩ }
  rentals := .empty
  items := .empty
  books := []

@[simp] theorem findById_sold (id : Nat) (metadata : Json) :
    (sold id metadata).ledger.findById id = some (paid id metadata) := by
  simp [sold, Ledger.findById, Table.find?, paid]

@[simp] theorem paid_userId (id : Nat) (metadata : Json) :
    (paid id metadata).userId = "reader" := rfl

@[simp] theorem items_sold (id : Nat) (metadata : Json) : (sold id metadata).items.rows = [] := rfl

@[simp] theorem rentals_sold (id : Nat) (metadata : Json) :
    (sold id metadata).rentals.rentals.rows = [] := rfl

@[simp] theorem books_sold (id : Nat) (metadata : Json) : (sold id metadata).books = [] := rfl

def novelPurchase : Json := .obj [("bookId", .str "novel"), ("type", .str "purchase")]

def novelRental : Json :=
  .obj [("bookId", .str "novel"), ("type", .str "rental"), ("durationDays", .int 1)]

theorem type_novelPurchase (id : Nat) :
    (paid id novelPurchase).metaString "type" = some "purchase" := rfl

theorem book_novelPurchase (id : Nat) :
    (paid id novelPurchase).metaBookId = some "novel" := rfl

theorem type_novelRental (id : Nat) :
    (paid id novelRental).metaString "type" = some "rental" := rfl

theorem book_novelRental (id : Nat) :
    (paid id novelRental).metaBookId = some "novel" := rfl

theorem days_novelRental (id : Nat) : metaDays (paid id novelRental) "durationDays" = some 1 := by
  have days : (paid id novelRental).metaNumber "durationDays" = some 1 := rfl
  simp [metaDays, days]

@[simp] theorem limitOne_nil {ρ : Type} (pick : Nat) : limitOne ([] : List ρ) pick = none := by
  simp [limitOne]

@[simp] theorem limitOne_singleton {ρ : Type} (row : ρ) : limitOne [row] 0 = some row := rfl

/-! Each operation with a routed read, against a replica that lacks the last write. -/

attribute [local simp] World.perform Database.apply Database.perform Database.opened libraryCall
  Library.call Statement.Routed Statement.via Database.shelf Shelf.create Table.insert Table.find?
  Except.map Valkey.exec

section Library
open LibraryService LibraryEventHandler

theorem libraryPaymentCompleted_dependent (id : Nat) :
    ¬ (Operation.libraryPaymentCompleted id).Independent schema texts platform config := by
  refine not_independent (sold id novelPurchase) (.createItem "reader" "novel" none .owned) rfl
    (P := fun _ after => after.emitted ≠ []) (wpE_library ?_) (wpE_library ?_)
  · simp [LibraryEventHandler.handlePaymentCompleted, type_novelPurchase, book_novelPurchase]
  · simp [LibraryEventHandler.handlePaymentCompleted, type_novelPurchase, book_novelPurchase]

theorem libraryRefundCompleted_dependent (id : Nat) :
    ¬ (Operation.libraryRefundCompleted id).Independent schema texts platform config := by
  refine not_independent (sold id novelPurchase) (.createItem "reader" "novel" none .owned) rfl
    (P := fun _ after => after.emitted = []) (wpE_library ?_) (wpE_library ?_)
  · simp [LibraryEventHandler.handleRefundCompleted, removeBookForRefund, type_novelPurchase,
      book_novelPurchase]
  · simp [LibraryEventHandler.handleRefundCompleted, removeBookForRefund, removeFromLibrary,
      type_novelPurchase, book_novelPurchase]

theorem rentalCreated_dependent (rentalId : Nat) (userId bookId : String) :
    ¬ (Operation.rentalCreated rentalId userId bookId).Independent schema texts platform
      config := by
  refine not_independent (sold 0 .null) (.createItem userId bookId (some rentalId) .rented) rfl
    (P := fun _ after => after.emitted ≠ []) (wpE_library ?_) (wpE_library ?_)
  · simp [handleRentalCreated, addToLibrary]
  · simp [handleRentalCreated]

theorem withdrawRentalAccess_stale {db : Database} (rentalId : Nat) :
    wpE (ServedBy schema (some (sold 0 .null))) (library texts (withdrawRentalAccess rentalId))
      (fun _ after => after.emitted = []) db.opened := by
  refine wpE_library ?_
  simp [withdrawRentalAccess]

/-- An entry for the rental. -/
def lent (rentalId : Nat) : Database :=
  { sold 0 .null with
    items := ((sold 0 .null).shelf.create "reader" "novel" (some rentalId) .rented).2.items }

theorem withdrawRentalAccess_fresh (rentalId : Nat) :
    wpE (ServedBy schema none) (library texts (withdrawRentalAccess rentalId))
      (fun _ after => ¬ after.emitted = []) (lent rentalId).opened := by
  refine wpE_library ?_
  simp [withdrawRentalAccess, removeBookForRefund, removeFromLibrary, lent]

theorem rentalReturned_dependent (rentalId : Nat) :
    ¬ (Operation.rentalReturned rentalId).Independent schema texts platform config :=
  not_independent (sold 0 .null) (.createItem "reader" "novel" (some rentalId) .rented) rfl
    (withdrawRentalAccess_stale rentalId) (withdrawRentalAccess_fresh rentalId)

theorem rentalExpired_dependent (rentalId : Nat) :
    ¬ (Operation.rentalExpired rentalId).Independent schema texts platform config :=
  not_independent (sold 0 .null) (.createItem "reader" "novel" (some rentalId) .rented) rfl
    (withdrawRentalAccess_stale rentalId) (withdrawRentalAccess_fresh rentalId)

end Library

section Rentals
open RentalsEventHandler

attribute [local simp] query emit now RentalsTables.findByUserAndBook RentalsTables.ofPair newest
  RentalsTables.create Database.onRentals

theorem rentalsPaymentCompleted_dependent (id : Nat) :
    ¬ (Operation.rentalsPaymentCompleted id).Independent schema texts platform config := by
  refine not_independent (sold id novelRental) (.createRental 0 "reader" "novel" 1) rfl
    (P := fun _ after => after.emitted ≠ []) ?_ ?_
  · simp [Operation.run, RentalsEventHandler.handlePaymentCompleted,
      RentalsEventHandler.grantRental, type_novelRental, book_novelRental, days_novelRental]
  · simp [Operation.run, RentalsEventHandler.handlePaymentCompleted,
      RentalsEventHandler.grantRental, type_novelRental, book_novelRental, days_novelRental]

/-- The cache is all that its commands change. -/
theorem wpE_cache_still {D α : Type} {p : CacheCalls D α} {Q : Except Failure α → World → Prop}
    {replica : Option Database} {world : World} (goes : ∀ result store,
      Q result { world with cache := store }) :
    wpE (ServedBy schema replica) (cache p) Q world := by
  rw [wpE, cache, ExceptT.run_mk, Program.wp_expand]
  generalize p.run = program
  induction program generalizing world with
  | done result => exact goes result world.cache
  | call call next ih =>
    cases call with
    | valkey command =>
      have step : Program.wp (fun op => (cacheCall op).wp (ServedBy schema replica))
          (next (world.cache.exec world.clock command).1) Q
          { world with cache := (world.cache.exec world.clock command).2 } := ih _ goes
      refine (servedBy_apply replica (.cache command) (fun answer after => Program.wp
        (fun op => (cacheCall op).wp (ServedBy schema replica)) (next answer) Q after) world).mpr ?_
      exact step
    | readDatabase => exact ih _ goes
    | changeDatabase change => exact ih _ goes

theorem rentalsRefundCompleted_dependent (id : Nat) :
    ¬ (Operation.rentalsRefundCompleted id).Independent schema texts platform config := by
  refine not_independent (sold id novelRental) (.createRental 0 "reader" "novel" 1) rfl
    (P := fun _ after => ∀ rental ∈ after.primary.rentals.rentals.rows, rental.status = .active)
    ?_ ?_
  · simp [Operation.run, RentalsEventHandler.handleRefundCompleted,
      RentalsEventHandler.revokeRental, type_novelRental, book_novelRental]
  · simp [Operation.run, RentalsEventHandler.handleRefundCompleted,
      RentalsEventHandler.revokeRental, type_novelRental, book_novelRental, RentalsService.expire]
    refine wpE_cache_still fun result store => ?_
    cases result with
    | ok _ => simp [RentalsTables.update, Table.modify, RentalPatch.apply]
    | error e => simp [RentalsTables.update, Table.modify, RentalPatch.apply]

end Rentals

section Books
open BooksService

/-- A book of this owner. -/
def ownBook (id userId : String) : BookRow :=
  { id, ownerId := some userId, isFree := false, price := none, deletedAt := none, isbn := none
    viewCount := 0, downloadCount := 0 }

/-- A book that has just been added. -/
def shelved (id userId : String) : Database := { sold 0 .null with books := [ownBook id userId] }

theorem book_dependent {operation : Operation} {id : String} (userId : String)
    {rest : Option BookRow → Method operation.Answer}
    (starts : operation.run texts platform config = query (.findBook id) >>= rest)
    (missing : rest none = throw (.notFound "Book not found"))
    (found : wpE (ServedBy schema none) (rest (some (ownBook id userId)))
      (fun result _ => result ≠ .error (.notFound "Book not found")) (shelved id userId).opened) :
    ¬ operation.Independent schema texts platform config := by
  refine not_independent (sold 0 .null) (.createBook (ownBook id userId))
    (P := fun result _ => result = .error (.notFound "Book not found")) rfl ?_ ?_
  · rw [starts]
    simp [query, missing]
  · have added : ((sold 0 .null).apply schema 0 (.createBook (ownBook id userId))).2 =
        shelved id userId := by
      simp [shelved]
    have there : (shelved id userId).books.find? (·.id = id) = some (ownBook id userId) := by
      simp [shelved, ownBook]
    rw [added, starts]
    simp only [query, wpE_bind, wpE_mk_call, servedBy_apply, World.perform, Database.opened,
      respond_none, Database.apply, Database.perform, there]
    exact found

theorem bookForSale_ownBook (id userId action freeMessage : String) :
    bookForSale (some (ownBook id userId)) userId action freeMessage =
      .error (.forbidden ("Cannot " ++ action ++ " your own book")) := by
  rw [bookForSale, existingBook, if_neg (by simp [ownBook])]
  exact if_pos rfl

theorem purchase_dependent (userId bookId : String) (paymentMethod : Option String) :
    ¬ (Operation.purchase userId bookId paymentMethod).Independent schema texts platform
      config := by
  refine book_dependent userId rfl rfl ?_
  rw [bookForSale_ownBook]
  exact fun same => by cases same

theorem rent_dependent (userId bookId : String) (durationDays : Int)
    (paymentMethod : Option String) :
    ¬ (Operation.rent userId bookId durationDays paymentMethod).Independent schema texts platform
      config := by
  refine book_dependent userId rfl rfl ?_
  rw [bookForSale_ownBook]
  exact fun same => by cases same

theorem recordDownload_dependent (id userId : String) :
    ¬ (Operation.recordDownload id userId).Independent schema texts platform config := by
  refine book_dependent userId rfl rfl ?_
  have existing : existingBook (some (ownBook id userId)) = .ok (ownBook id userId) := rfl
  have refused : wpE (ServedBy schema none) (assertReadAccess (ownBook id userId) userId)
      (fun result _ => ∃ message, result = .error (.forbidden message))
      (shelved id userId).opened := by
    simp [assertReadAccess, RentalsService.findActiveRentalForBook, query, shelved, ownBook,
      RentalsTables.findByUserAndBook, RentalsTables.ofPair, newest]
  rw [existing, wpE_bind, wpE_liftM]
  dsimp only
  refine wpE_seq (Program.execSpec_monotone _ _) refused ?_ ?_
  · rintro e after ⟨message, ⟨⟩⟩ ⟨⟩
  · rintro u after ⟨message, ⟨⟩⟩

end Books

section Refunds

/-- Refunds of one minor unit. -/
def smallRefund (id : Nat) : RefundInput := ⟨id, 1, "EGP", none⟩

theorem apply_smallRefund (id : Nat) :
    ((sold id .null).apply schema 0 (.reserveRefundCapacity (smallRefund id))).2.ledger.refunds =
      ((sold id .null).ledger.insertRefund (smallRefund id)).2.refunds := by
  have locked : (sold id .null).ledger.lockPayment (smallRefund id).paymentId =
      .ok (paid id .null) := by
    simp only [Ledger.lockPayment, smallRefund, findById_sold]
    rfl
  have reserved := Ledger.reserveRefundCapacity_of_room locked (by decide : Ledger.UsableTotal 0)
    (by decide : (0 : Int) + 1 ≤ 100)
  simp only [Database.apply, Database.perform, reserved, Database.onLedger, Except.map,
    Ledger.admitRefund_refunds]

theorem getRefunds_dependent (id : Nat) :
    ¬ (Operation.payments (.getRefunds id)).Independent schema texts platform config := by
  refine not_independent (sold id .null) (.reserveRefundCapacity (smallRefund id)) rfl
    (P := fun result _ => result = .ok []) ?_ ?_
  · simp [Operation.run, PaymentsRequest.run, query, sold, Ledger.empty, Table.empty]
  · have rows : (((sold id .null).apply schema 0
        (.reserveRefundCapacity (smallRefund id))).2.ledger.refunds.rows.filter
          (·.paymentId = id)) = [((sold id .null).ledger.insertRefund (smallRefund id)).1] := by
      rw [apply_smallRefund]
      simp [smallRefund, Ledger.insertRefund, sold, Ledger.empty, Table.empty]
    generalize (sold id .null).apply schema 0 (.reserveRefundCapacity (smallRefund id)) = after
      at rows
    simp [Operation.run, PaymentsRequest.run, query, rows]

end Refunds

/-- Nothing depends on the replicas exactly when all reads are the primary's. -/
theorem independent_iff (schema : TransactionsSchema) (texts : RowTexts) (platform : Platform)
    (config : PaymobConfig) (operation : Operation) :
    operation.Independent schema texts platform config ↔ operation.OnPrimary := by
  refine ⟨fun independent => ?_, independent_of_onPrimary⟩
  cases operation with
  | payments request =>
    cases request with
    | getRefunds paymentId => exact getRefunds_dependent paymentId independent
    | _ => trivial
  | libraryPaymentCompleted paymentId =>
    exact libraryPaymentCompleted_dependent paymentId independent
  | libraryRefundCompleted paymentId =>
    exact libraryRefundCompleted_dependent paymentId independent
  | rentalCreated rentalId userId bookId =>
    exact rentalCreated_dependent rentalId userId bookId independent
  | rentalReturned rentalId => exact rentalReturned_dependent rentalId independent
  | rentalExpired rentalId => exact rentalExpired_dependent rentalId independent
  | rentalsPaymentCompleted paymentId =>
    exact rentalsPaymentCompleted_dependent paymentId independent
  | rentalsRefundCompleted paymentId =>
    exact rentalsRefundCompleted_dependent paymentId independent
  | purchase userId bookId paymentMethod =>
    exact purchase_dependent userId bookId paymentMethod independent
  | rent userId bookId durationDays paymentMethod =>
    exact rent_dependent userId bookId durationDays paymentMethod independent
  | recordDownload id userId => exact recordDownload_dependent id userId independent

/-- The payment for the novel, and the novel, before the reader has it. -/
def unshelved : Database := { sold 0 novelPurchase with books := [ownBook "novel" "author"] }

/-- The reader has the novel on the shelf. -/
def bought : Database :=
  (unshelved.apply paymentTransactionsP 0 (.createItem "reader" "novel" none .owned)).2

/-- A reader who has paid for the novel, and has it, may not download it as long as the router
picks a replica that has not seen the last write. -/
theorem download_refused_by_replica :
    let download := Operation.recordDownload "novel" "reader"
    let lags := download.Lags paymentTransactionsP .epoch .plain .default bought.opened fun _ => {}
    let outcome := download.outcome paymentTransactionsP .epoch .plain .default bought.opened
      fun _ => {}
    lags (fun _ => some unshelved) ∧ lags (fun _ => none) ∧
      (outcome fun _ => some unshelved).1 = .error (.forbidden
        "You do not have access to this book. Purchase it or rent it to add it to your library.") ∧
      (outcome fun _ => none).1 = .ok (ownBook "novel" "author") :=
  ⟨lags_stuck (.single ⟨0, .createItem "reader" "novel" none .owned, rfl⟩), lags_primary _,
    rfl, rfl⟩

end Stale
end Commerce
