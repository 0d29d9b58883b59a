import Hakawi.Commerce.Database
import Hakawi.Stories.Cached

/-!
# Payments and rentals as JSON

What the cache keeps of a row, and what the services revive from it. Only the dates and what the
row's own columns allow are checked.
-/

namespace Commerce
open Html Common Payments Rentals Stories

/-- What the language makes of strings, dates and the text of a payment's metadata. -/
structure RowTexts extends JsonTexts where
  ids : UuidText
  metadata : Json → String
  readMetadata : String → Option Json
  readMetadata_metadata : ∀ recorded read, readMetadata (metadata recorded) = some read →
    read = recorded

/-- Dates at the beginning of time, and no metadata. -/
def RowTexts.epoch : RowTexts where
  toJsonTexts := .epoch
  ids := .hexadecimal
  metadata _ := ""
  readMetadata _ := none
  readMetadata_metadata := nofun

/-- How a cached row is written and read back; `revive` is none where it throws. -/
structure RowJson (α : Type) where
  stringify : α → Json
  revive : Json → Option (Option α)
  revive_stringify : ∀ row revived, revive (stringify row) = some revived → revived = some row

def PAYMENT_STATUSES : List PaymentStatus :=
  [.pending, .processing, .completed, .failed, .cancelled, .refunded]

def RENTAL_STATUSES : List RentalStatus := [.active, .expired, .returned, .cancelled]

def rentalStatusText : RentalStatus → String
  | .active => "active"
  | .expired => "expired"
  | .returned => "returned"
  | .cancelled => "cancelled"

section Json
variable (texts : RowTexts)

def stringifyPayment (payment : Payment) : Json := .obj
  [("id", jsonText texts.toJsonTexts (texts.ids.print payment.id)), ("userId", .str payment.userId),
    ("amount", .int payment.amount), ("currency", .str payment.currency),
    ("status", .str payment.status.text),
    ("paymobOrderId", jsonNullable .str payment.paymobOrderId),
    ("paymobPaymentId", jsonNullable .str payment.paymobPaymentId),
    ("paymobTransactionId", jsonNullable .str payment.paymobTransactionId),
    ("metadata", jsonNullable (fun m => .str (texts.metadata m)) payment.metadata),
    ("deletedAt", jsonNullable (jsonDate texts.toJsonTexts) payment.deletedAt)]

def asId (json : Option Json) : Option Nat :=
  (asText texts.toJsonTexts json).bind texts.ids.parse

def asPaymentStatus (json : Option Json) : Option PaymentStatus :=
  (asString json).bind fun text => PAYMENT_STATUSES.find? (·.text = text)

def asRentalStatus (json : Option Json) : Option RentalStatus :=
  (asString json).bind fun text => RENTAL_STATUSES.find? (rentalStatusText · = text)

def asCount (json : Option Json) : Option Nat := (asInteger json).map Int.toNat

def revivePaymentDates (json : Json) : Option (Option Payment) := do
  return some
    { id := ← asId texts (json.field? "id")
      userId := ← asString (json.field? "userId")
      amount := ← asInteger (json.field? "amount")
      currency := ← asString (json.field? "currency")
      status := ← asPaymentStatus (json.field? "status")
      paymobOrderId := ← asNullable asString (json.field? "paymobOrderId")
      paymobPaymentId := ← asNullable asString (json.field? "paymobPaymentId")
      paymobTransactionId := ← asNullable asString (json.field? "paymobTransactionId")
      metadata := ← asNullable (fun value => (asString value).bind texts.readMetadata)
        (json.field? "metadata")
      deletedAt := ← reviveNullableDate texts.toJsonTexts (json.field? "deletedAt") }

def stringifyRental (rental : Rental) : Json := .obj
  [("id", jsonText texts.toJsonTexts (texts.ids.print rental.id)), ("userId", .str rental.userId),
    ("bookId", .str rental.bookId), ("status", .str (rentalStatusText rental.status)),
    ("startDate", jsonDate texts.toJsonTexts rental.startDate),
    ("endDate", jsonDate texts.toJsonTexts rental.endDate),
    ("extendedCount", .int rental.extendedCount), ("maxExtensions", .int rental.maxExtensions),
    ("returnedAt", jsonNullable (jsonDate texts.toJsonTexts) rental.returnedAt),
    ("deletedAt", jsonNullable (jsonDate texts.toJsonTexts) rental.deletedAt),
    ("createdAt", jsonDate texts.toJsonTexts rental.createdAt)]

def reviveRentalDates (json : Json) : Option (Option Rental) := do
  return some
    { id := ← asId texts (json.field? "id")
      userId := ← asString (json.field? "userId")
      bookId := ← asString (json.field? "bookId")
      status := ← asRentalStatus (json.field? "status")
      startDate := ← reviveRequiredDate texts.toJsonTexts (json.field? "startDate")
      endDate := ← reviveRequiredDate texts.toJsonTexts (json.field? "endDate")
      extendedCount := ← asCount (json.field? "extendedCount")
      maxExtensions := ← asCount (json.field? "maxExtensions")
      returnedAt := ← reviveNullableDate texts.toJsonTexts (json.field? "returnedAt")
      deletedAt := ← reviveNullableDate texts.toJsonTexts (json.field? "deletedAt")
      createdAt := ← reviveRequiredDate texts.toJsonTexts (json.field? "createdAt") }

variable {texts}

theorem asId_print (id : Nat) :
    asId texts (some (jsonText texts.toJsonTexts (texts.ids.print id))) = some id := by
  simp [asId, asText, jsonText, texts.units_string, texts.ids.parse_print]

theorem asPaymentStatus_text (status : PaymentStatus) :
    asPaymentStatus (some (.str status.text)) = some status := by
  cases status <;> decide

theorem asRentalStatus_text (status : RentalStatus) :
    asRentalStatus (some (.str (rentalStatusText status))) = some status := by
  cases status <;> decide

theorem asCount_int (n : Nat) : asCount (some (.int n)) = some n := by
  exact congrArg (·.map Int.toNat) (integer?_intCast n)

theorem asMetadata {recorded read : Option Json}
    (reads : asNullable (fun value => (asString value).bind texts.readMetadata)
      (some (jsonNullable (fun m => .str (texts.metadata m)) recorded)) = some read) :
    read = recorded := by
  cases recorded with
  | none => exact (Option.some.inj reads).symm
  | some recorded =>
    obtain ⟨found, same, rfl⟩ := Option.map_eq_some_iff.mp reads
    exact congrArg some (texts.readMetadata_metadata recorded found same)

/-- Only the date and the metadata of a payment that was written need reviving. -/
theorem revivePaymentDates_eq (payment : Payment) :
    revivePaymentDates texts (stringifyPayment texts payment) = (do
      let metadata ← asNullable (fun value => (asString value).bind texts.readMetadata)
        (some (jsonNullable (fun m => .str (texts.metadata m)) payment.metadata))
      let deletedAt ← reviveNullableDate texts.toJsonTexts
        (some (jsonNullable (jsonDate texts.toJsonTexts) payment.deletedAt))
      return some { payment with metadata, deletedAt }) := by
  have number (n : Int) : asInteger (some (.int n)) = some n := integer?_intCast n
  have text (t : String) : asString (some (.str t)) = some t := rfl
  simp [revivePaymentDates, stringifyPayment, Json.field?, List.lookup_cons, asId_print, number, text,
    asPaymentStatus_text, asString_jsonNullable]

/-- A payment that is revived is the one that was written. -/
theorem revivePaymentDates_stringify (payment : Payment) (revived : Option Payment)
    (read : revivePaymentDates texts (stringifyPayment texts payment) = some revived) :
    revived = some payment := by
  rw [revivePaymentDates_eq] at read
  obtain ⟨metadata, recorded, read⟩ := Option.bind_eq_some_iff.mp read
  obtain ⟨deletedAt, deleted, read⟩ := Option.bind_eq_some_iff.mp read
  rw [asMetadata recorded, reviveNullableDate_jsonNullable deleted] at read
  exact (Option.some.inj read).symm

/-- Only the dates of a rental that was written need reviving. -/
theorem reviveRentalDates_eq (rental : Rental) :
    reviveRentalDates texts (stringifyRental texts rental) = (do
      let startDate ← texts.date (texts.toISOString rental.startDate)
      let endDate ← texts.date (texts.toISOString rental.endDate)
      let returnedAt ← reviveNullableDate texts.toJsonTexts
        (some (jsonNullable (jsonDate texts.toJsonTexts) rental.returnedAt))
      let deletedAt ← reviveNullableDate texts.toJsonTexts
        (some (jsonNullable (jsonDate texts.toJsonTexts) rental.deletedAt))
      let createdAt ← texts.date (texts.toISOString rental.createdAt)
      return some { rental with startDate, endDate, returnedAt, deletedAt, createdAt }) := by
  have text (t : String) : asString (some (.str t)) = some t := rfl
  simp [reviveRentalDates, stringifyRental, Json.field?, List.lookup_cons, asId_print, text,
    asCount_int, asRentalStatus_text]
  rfl

/-- A rental that is revived is the one that was written. -/
theorem reviveRentalDates_stringify (rental : Rental) (revived : Option Rental)
    (read : reviveRentalDates texts (stringifyRental texts rental) = some revived) :
    revived = some rental := by
  rw [reviveRentalDates_eq] at read
  obtain ⟨startDate, started, read⟩ := Option.bind_eq_some_iff.mp read
  obtain ⟨endDate, ended, read⟩ := Option.bind_eq_some_iff.mp read
  obtain ⟨returnedAt, returned, read⟩ := Option.bind_eq_some_iff.mp read
  obtain ⟨deletedAt, deleted, read⟩ := Option.bind_eq_some_iff.mp read
  obtain ⟨createdAt, created, read⟩ := Option.bind_eq_some_iff.mp read
  rw [texts.date_toISOString _ _ started, texts.date_toISOString _ _ ended,
    reviveNullableDate_jsonNullable returned, reviveNullableDate_jsonNullable deleted,
    texts.date_toISOString _ _ created] at read
  exact (Option.some.inj read).symm

variable (texts)

def paymentJson : RowJson Payment :=
  ⟨stringifyPayment texts, revivePaymentDates texts, revivePaymentDates_stringify⟩

def rentalJson : RowJson Rental :=
  ⟨stringifyRental texts, reviveRentalDates texts, reviveRentalDates_stringify⟩

end Json
end Commerce

/-!
## Calls of the services that sell

The clock, one statement, one command of the cache, one event or one request to the gateway at a
time. The environment decides which calls fail, which replica the router picks for a read and what
the gateway does. The programs of the payments and the library modules are taken over call by call.
-/

namespace Commerce
open Html Common Effects Caching Payments Rentals Library

inductive Event where
  | payment (event : PaymentEvent)
  | rental (event : RentalEvent)
  | library (event : LibraryEvent)
  deriving DecidableEq

inductive Call where
  /-- `new Date()` -/
  | now
  | query (statement : Statement)
  | cache (command : Command Units)
  | emit (event : Event)
  | getAuthToken
  | createCheckout (amountCents : Int) (currency : String) (merchantOrderId : Nat)
  | refundAttempt (transactionId : String) (amountCents : Int)

namespace Call

abbrev Result : Call → Type
  | now => Int
  | query statement => Except Failure statement.Answer
  | cache command => Except Failure command.Answer
  | emit _ => Except Failure Unit
  | getAuthToken => Except Failure String
  | createCheckout _ _ _ => Except Failure String
  | refundAttempt _ _ => Except Failure PaymobRefundResponse

/-- A call that fails throws; only the clock cannot. -/
def fail (error : Failure) : (call : Call) → call.Result → call.Result
  | now, time => time
  | query _, _ => .error error
  | cache _, _ => .error error
  | emit _, _ => .error error
  | getAuthToken, _ => .error error
  | createCheckout _ _ _, _ => .error error
  | refundAttempt _ _, _ => .error error

end Call

structure Fault where
  error : Failure
  /-- Whether the call was carried out all the same. -/
  performed : Bool := false

/-- What the environment decides about one call. -/
structure Choice where
  /-- Milliseconds since the last call. -/
  elapsed : Nat := 0
  fault : Option Fault := none
  /-- Which of the rows that match comes first. -/
  pick : Nat := 0
  /-- What the replica holds that the router picks, if it finds one. -/
  served : Option Database := none
  authToken : Except Failure String := .error (.error "no token")
  checkout : Except Failure String := .error (.error "no answer")
  attempt : AttemptOutcome := ⟨false, .error (.error "no answer")⟩

/-- The same, but for what the replica holds. -/
def Choice.servedBy (choice : Choice) (replica : Option Database) : Choice :=
  { choice with served := replica }

structure World where
  /-- In milliseconds. -/
  clock : Int
  primary : Database
  cache : Valkey Units
  emitted : List Event
  gatewayRefunds : List GatewayRefund

namespace World
variable (schema : TransactionsSchema)

/-- The database that a statement is sent to answers it; only the primary is written. -/
def respond (choice : Choice) (world : World) (statement : Statement) :
    Except Failure statement.Answer × Database :=
  match choice.served with
  | none => world.primary.apply schema choice.pick statement
  | some replica =>
    if statement.Routed then ((replica.apply schema choice.pick statement).1, world.primary)
    else world.primary.apply schema choice.pick statement

def perform (choice : Choice) (world : World) : (call : Call) → call.Result × World
  | .now => (world.clock, world)
  | .query statement =>
    ((world.respond schema choice statement).1,
      { world with primary := (world.respond schema choice statement).2 })
  | .cache command =>
    ((world.cache.exec world.clock command).1,
      { world with cache := (world.cache.exec world.clock command).2 })
  | .emit event => (.ok (), { world with emitted := world.emitted ++ [event] })
  | .getAuthToken => (choice.authToken, world)
  | .createCheckout _ _ _ => (choice.checkout, world)
  | .refundAttempt transactionId amountCents =>
    (choice.attempt.answer, if choice.attempt.executed then
      { world with gatewayRefunds := world.gatewayRefunds ++ [⟨transactionId, amountCents⟩] }
      else world)

def exec (choice : Choice) (world : World) (call : Call) : call.Result × World :=
  let reached := { world with clock := world.clock + choice.elapsed }
  let done := reached.perform schema choice call
  match choice.fault with
  | none => done
  | some fault => (call.fail fault.error done.1, if fault.performed then done.2 else reached)

end World

abbrev Method (α : Type) : Type := Fallible Call Call.Result Failure α

def now : Method Int := ExceptT.mk (.call .now fun time => .done (.ok time))

def query (statement : Statement) : Method statement.Answer :=
  ExceptT.mk (.call (.query statement) .done)

def emit (event : Event) : Method Unit := ExceptT.mk (.call (.emit event) .done)

def createCheckout (amountCents : Int) (currency : String) (merchantOrderId : Nat) :
    Method String :=
  ExceptT.mk (.call (.createCheckout amountCents currency merchantOrderId) .done)

section Taken
variable {α : Type}

/-- A method of the cache service reads no database of its own. -/
def cacheCall {D : Type} : (call : CacheCall D) → Program Call Call.Result (CacheResult call)
  | .valkey command => .call (.cache command) .done
  | .readDatabase => .done (.error queryFailed)
  | .changeDatabase _ => .done (.error queryFailed)

def cache {D : Type} (p : CacheCalls D α) : Method α := ExceptT.mk (p.run.expand cacheCall)

variable (texts : RowTexts)

def paymentsCall : (op : PaymentsOp) → Program Call Call.Result op.Result
  | .findById id => .call (.query (.findPayment id)) .done
  | .findByOrderId orderId => .call (.query (.findPaymentByOrderId orderId)) .done
  | .findByTransactionId transactionId =>
    .call (.query (.findPaymentByTransactionId transactionId)) .done
  | .update id patch => .call (.query (.updatePayment id patch)) .done
  | .createTransaction data => .call (.query (.createTransaction data)) .done
  | .updateRefund id patch => .call (.query (.updateRefund id patch)) .done
  | .reserveRefundCapacity input => .call (.query (.reserveRefundCapacity input)) .done
  | .reconcileRefundCapacity paymentId =>
    .call (.query (.reconcileRefundCapacity paymentId)) .done
  | .invalidateKey cacheNamespace id => (cache (TaggedCacheService.invalidateKey
      (units cacheNamespace) (texts.ids.print id) [] : CacheCalls Payment Unit)).run
  | .invalidateTags tags =>
    (cache (TaggedCacheService.invalidateTags (tags.map units) : CacheCalls Payment Unit)).run
  | .emit event => .call (.emit (.payment event)) .done
  | .getAuthToken => .call .getAuthToken .done
  | .refundAttempt transactionId amountCents =>
    .call (.refundAttempt transactionId amountCents) .done

/-- A method of the payments service. -/
def payments (p : Payments.Handler α) : Method α := ExceptT.mk (p.run.expand (paymentsCall texts))

def libraryCall : (call : Library.Call) → Program Call Call.Result call.Answer
  | .findPayment id => .call (.query (.findPayment id)) .done
  | .findBook id => .call (.query (.findBook id)) fun found =>
    .done (found.map fun book => book.map BookRow.toBook)
  | .findByUserAndBook userId bookId => .call (.query (.findItemByUserAndBook userId bookId)) .done
  | .findByRentalId rentalId => .call (.query (.findItemByRentalId rentalId)) .done
  | .findById id => .call (.query (.findItem id)) .done
  | .create userId bookId rentalId status =>
    .call (.query (.createItem userId bookId rentalId status)) .done
  | .delete id => .call (.query (.deleteItem id)) .done
  | .forget id => .call (.cache (.del (units "library:" ++ texts.ids.print id))) fun answer =>
    .done (answer.map fun _ => ())
  | .emit event => .call (.emit (.library event)) .done

/-- A method of the library. -/
def library (p : Library.Method α) : Method α := ExceptT.mk (p.run.expand (libraryCall texts))

end Taken

/-- `TaggedCacheService.getOrSet` with a load that may throw; of the entry the value only. -/
def getOrSet {α : Type} (json : RowJson α) (cacheNamespace key : Units) (ttl : Int) (tag : Units)
    (load : Method α) : Method α := do
  match ← cache (TaggedCacheService.get cacheNamespace key json.revive) with
  | some row => return row
  | none =>
    let generations ← cache (readTagGenerationSnapshot [tag] : CacheCalls α _)
    let loaded ← load
    cache (TaggedCacheService.set cacheNamespace key (json.stringify loaded) ttl [tag] generations :
      CacheCalls α Unit)
    return loaded

end Commerce
