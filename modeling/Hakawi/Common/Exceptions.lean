import Hakawi.Html.Units

/-!
# What a call can throw

One type for the exceptions of the repositories, the gateway client, the HTTP
layer and the services, because an exception travels through all of them.
-/

namespace Common

inductive HttpStatus where
  | badRequest
  | forbidden
  | notFound
  | conflict
  | internalServerError
  | serviceUnavailable
  deriving DecidableEq, Repr

inductive Failure where
  | http (status : HttpStatus) (message : String)
  | refundCapacityExceeded (requested alreadyRefunded capturedAmount : Int)
  | refundablePaymentNotFound (paymentId : Nat)
  | fetchResponse (operation : String) (status : Nat) (statusText bodyPreview : String)
  | fetchParse (operation message : String)
  | fetchTimeout (operation : String) (timeoutMs : Nat)
  | fetchValidation (operation : String) (issues : List String)
  | paymobGateway (step message : String)
  | uniqueViolation (index : String)
  | notNullViolation (column : String)
  | error (message : String)
  deriving DecidableEq, Repr

namespace Failure

def badRequest (message : String) : Failure := http .badRequest message
def notFound (message : String) : Failure := http .notFound message
def forbidden (message : String) : Failure := http .forbidden message
def conflict (message : String) : Failure := http .conflict message
def serviceUnavailable (message : String) : Failure := http .serviceUnavailable message

/-- `error.message` -/
def message : Failure → String
  | http _ message => message
  | refundCapacityExceeded requested alreadyRefunded capturedAmount =>
    if alreadyRefunded = 0 then
      s!"Refund amount {requested} exceeds the captured amount {capturedAmount}"
    else
      s!"Refund amount {requested} exceeds the remaining refundable amount " ++
        s!"{capturedAmount - alreadyRefunded} " ++
        s!"({alreadyRefunded} of {capturedAmount} already refunded)"
  | refundablePaymentNotFound _ => "Payment not found"
  | fetchResponse operation status statusText _ =>
    s!"{operation} failed with HTTP {status} {statusText}".trimAscii.toString
  | fetchParse operation message => s!"{operation} returned a body that is not valid JSON: {message}"
  | fetchTimeout operation timeoutMs => s!"{operation} timed out after {timeoutMs}ms"
  | fetchValidation operation _ => s!"{operation} response failed schema validation"
  | paymobGateway step message => s!"Paymob {step} failed: {message}"
  | uniqueViolation index => s!"duplicate key value violates unique constraint \"{index}\""
  | notNullViolation column => s!"null value in column \"{column}\" violates not-null constraint"
  | error message => message

/-- A refused request is worth repeating when the gateway says so or when its
answer never arrived in a readable form. -/
def isRetryableFetchError : Failure → Bool
  | fetchResponse _ status _ _ =>
    status == 408 || status == 425 || status == 429 || decide (500 ≤ status)
  | fetchParse _ _ => true
  | fetchTimeout _ _ => true
  | _ => false

end Failure

/-!
## Exceptions over the database

A statement that is rejected reaches its caller as the query builder hands it on: a wrapper
whose cause is the driver's error, and which has no code of its own.
-/

open Html

inductive DatabaseError where
  | uniqueViolation (constraint : String)
  | notNullViolation (column : String)
  /-- A text that is not of the column's type. -/
  | invalidText
  /-- Any other error; one of the connection need not have a code. -/
  | failed (code : Option String)
  deriving DecidableEq

def DatabaseError.code : DatabaseError → Option String
  | uniqueViolation _ => some "23505"
  | notNullViolation _ => some "23502"
  | invalidText => some "22P02"
  | failed code => code

inductive Exception where
  | http (status : HttpStatus) (message : Units)
  | typeError
  | driver (error : DatabaseError)
  /-- `DrizzleQueryError` -/
  | drizzle (cause : DatabaseError)
  /-- What a command of the store throws. -/
  | store (failure : Failure)
  deriving DecidableEq

namespace Exception

def badRequest (message : Units) : Exception := http .badRequest message
def forbidden (message : Units) : Exception := http .forbidden message
def notFound (message : Units) : Exception := http .notFound message
def conflict (message : Units) : Exception := http .conflict message

/-- `(error as { code?: unknown }).code` -/
def code : Exception → Option String
  | driver error => error.code
  | _ => none

/-- Whether a failed write lost a race, as the repositories tell it. -/
def isUniqueViolation (error : Exception) : Bool := error.code = some "23505"

end Exception
end Common
