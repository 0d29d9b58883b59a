import Hakawi.Payments.Operations

/-!
# The Paymob schemas

The value checks shared by checkout and refund, and the webhook payload: its
schema over both delivery shapes (the documented envelope and the legacy flat
callback) and the resolvers that read one value out of either shape.
-/

namespace Payments

open Common

/-- `z.number().int().positive().max(...)`: every violated check is an issue. -/
def paymobAmountCentsIssues (amount : Rat) : List String :=
  (if amount.den = 1 then [] else ["amount must be an integer number of minor units"]) ++
  (if 0 < amount then [] else ["amount must be greater than zero"]) ++
  (if amount ≤ 9999999999 then []
    else ["amount exceeds the maximum single charge Paymob accepts"])

def paymobAmountCentsSchema (amount : Rat) : Except (List String) Int :=
  match paymobAmountCentsIssues amount with
  | [] => .ok amount.num
  | issues => .error issues

theorem paymobAmountCentsIssues_eq_nil {amount : Rat} :
    paymobAmountCentsIssues amount = [] ↔
      amount.den = 1 ∧ 0 < amount ∧ amount ≤ 9999999999 := by
  by_cases h1 : amount.den = 1 <;> by_cases h2 : 0 < amount <;>
    by_cases h3 : amount ≤ 9999999999 <;> simp [paymobAmountCentsIssues, h1, h2, h3]

theorem paymobAmountCentsSchema_eq_ok {amount : Rat} {cents : Int} :
    paymobAmountCentsSchema amount = .ok cents ↔
      amount = cents ∧ 0 < cents ∧ cents ≤ 9999999999 := by
  unfold paymobAmountCentsSchema
  constructor
  · intro h
    cases hi : paymobAmountCentsIssues amount with
    | cons issue rest => simp [hi] at h
    | nil =>
      rw [hi] at h
      obtain rfl := Except.ok.inj h
      obtain ⟨hden, hpos, hmax⟩ := paymobAmountCentsIssues_eq_nil.mp hi
      have heq : amount = (amount.num : Rat) := ((Rat.den_eq_one_iff amount).mp hden).symm
      rw [heq] at hpos hmax
      exact ⟨heq, by exact_mod_cast hpos, by exact_mod_cast hmax⟩
  · rintro ⟨rfl, hpos, hmax⟩
    have hnil : paymobAmountCentsIssues (cents : Rat) = [] :=
      paymobAmountCentsIssues_eq_nil.mpr
        ⟨rfl, by exact_mod_cast hpos, by exact_mod_cast hmax⟩
    simp [hnil]

/-- `/^[A-Z]{3}$/` -/
def matchesCurrencyPattern (code : String) : Bool :=
  code.toList.length = 3 && code.toList.all fun c => 'A' ≤ c ∧ c ≤ 'Z'

def paymobCurrencySchema (code : String) : Except (List String) String :=
  if matchesCurrencyPattern code then .ok code
  else .error ["currency must be a three letter uppercase ISO 4217 code"]

/-- `/^[1-9]\d*$/` -/
def matchesPositiveIntegerPattern (text : String) : Bool :=
  match text.toList with
  | [] => false
  | first :: rest => ('1' ≤ first ∧ first ≤ '9') && rest.all fun c => '0' ≤ c ∧ c ≤ '9'

/-- A positive integer or a string that is not empty. -/
inductive Identifier where
  | number (value : Int)
  | text (value : String)
  deriving DecidableEq

/-- `String(identifier)` -/
def Identifier.string (platform : Platform) : Identifier → String
  | number value => platform.numberText value
  | text value => value

structure PaymobWebhookData where
  id : Option Identifier
  orderId : Option String
  amountCents : Option Int
  success : Option Bool
  pending : Option Bool
  /-- `order.id`; the two options are the optional object and its optional field. -/
  order : Option (Option Identifier)

structure PaymobWebhookPayload where
  type : Option String
  data : Option PaymobWebhookData
  transactionId : Option Identifier
  orderId : Option String
  paymentId : Option String
  amountCents : Option Int
  status : Option String

section Parsers

/-- `schema.optional()` on a field: an absent key passes, a present one has to parse. -/
def optionalField {α : Type} (schema : Json → Option α) (json : Json) (key : String) :
    Option (Option α) :=
  match json.field? key with
  | none => some none
  | some value => (schema value).map some

/-- `z.string().min(1)` -/
def nonEmptyString : Json → Option String
  | .str text => if text = "" then none else some text
  | _ => none

/-- `z.number().int().nonnegative()` -/
def nonNegativeInteger : Json → Option Int
  | .num value => (integer? value).filter (0 ≤ ·)
  | _ => none

def boolean : Json → Option Bool
  | .bool b => some b
  | _ => none

/-- `z.union([z.number().int().positive(), z.string().min(1)])` -/
def paymobWebhookIdentifierSchema : Json → Option Identifier
  | .num value => ((integer? value).filter (0 < ·)).map .number
  | .str text => if text = "" then none else some (.text text)
  | _ => none

/-- `z.object({ id: ... })` -/
def webhookOrderSchema : Json → Option (Option Identifier)
  | .obj fields => optionalField paymobWebhookIdentifierSchema (.obj fields) "id"
  | _ => none

def webhookDataSchema : Json → Option PaymobWebhookData
  | .obj fields => do
    let json := Json.obj fields
    return {
      id := ← optionalField paymobWebhookIdentifierSchema json "id"
      orderId := ← optionalField nonEmptyString json "order_id"
      amountCents := ← optionalField nonNegativeInteger json "amount_cents"
      success := ← optionalField boolean json "success"
      pending := ← optionalField boolean json "pending"
      order := ← optionalField webhookOrderSchema json "order" }
  | _ => none

def paymobWebhookPayloadSchema : Json → Option PaymobWebhookPayload
  | .obj fields => do
    let json := Json.obj fields
    return {
      type := ← optionalField nonEmptyString json "type"
      data := ← optionalField webhookDataSchema json "data"
      transactionId := ← optionalField paymobWebhookIdentifierSchema json "transaction_id"
      orderId := ← optionalField nonEmptyString json "order_id"
      paymentId := ← optionalField nonEmptyString json "payment_id"
      amountCents := ← optionalField nonNegativeInteger json "amount_cents"
      status := ← optionalField nonEmptyString json "status" }
  | _ => none

end Parsers

namespace PaymobWebhookPayload
variable (platform : Platform) (payload : PaymobWebhookPayload)

def resolveWebhookTransactionId : Option String :=
  (payload.transactionId <|> payload.data.bind (·.id)).map (·.string platform)

def resolveWebhookOrderId : Option String :=
  payload.orderId <|> payload.data.bind (·.orderId) <|>
    (payload.data.bind fun data => data.order.bind id).map (·.string platform)

/-- `none` is "the delivery says nothing", which is not the same as zero. -/
def resolveWebhookAmountCents : Option Int :=
  payload.amountCents <|> payload.data.bind (·.amountCents)

/-- The outcome the delivery reports: `completed` only for a settled success. -/
def resolveWebhookStatus : PaymentStatus :=
  let envelopePending := payload.data.bind (·.pending) = some true
  let envelopeSuccess := payload.data.bind (·.success) = some true
  if (envelopeSuccess ∧ ¬ envelopePending) ∨ payload.status = some "success" then .completed
  else .failed

end PaymobWebhookPayload

/-!
## The Paymob client: refunds

`refundTransaction` checks its input, obtains a token and posts the refund
through the retrying HTTP client. The request carries no idempotency key: each
attempt is a new refund request to the gateway.
-/

open Effects

structure PaymobConfig where
  webhookSecret : Option String
  /-- `PAYMOB_RETRY_MAX_ATTEMPTS` -/
  retryMaxAttempts : Nat

/-- The defaults of the environment, with a secret. -/
def PaymobConfig.default : PaymobConfig := ⟨some "secret", 2⟩

structure PaymobRefundResult where
  refundId : String
  success : Bool
  pending : Bool
  isRefund : Bool
  raw : Json

/-- `RetryService.execute`: up to `remaining` further attempts, each after a
failure that is worth repeating. -/
def withRetries {α : Type} (attempt : Handler α) : Nat → Handler α
  | 0 => attempt
  | remaining + 1 => tryCatch attempt fun error =>
    if error.isRetryableFetchError then withRetries attempt remaining else throw error

/-- `PaymobClient.describe` -/
def describeFetchError (platform : Platform) : Failure → String
  | .fetchResponse _ status statusText bodyPreview =>
    platform.trim s!"HTTP {status} {statusText} {bodyPreview}"
  | .fetchValidation _ issues =>
    "response failed schema validation: " ++ "; ".intercalate issues
  | error => error.message

def paymobRefundInputIssues (transactionId : String) (amountCents : Int) : List String :=
  (if matchesPositiveIntegerPattern transactionId then [] else ["Invalid"]) ++
    paymobAmountCentsIssues amountCents

def refundTransaction (platform : Platform) (config : PaymobConfig) (transactionId : String)
    (amountCents : Int) : Handler PaymobRefundResult := do
  let issues := paymobRefundInputIssues transactionId amountCents
  if issues ≠ [] then
    throw (.error (platform.zodErrorText issues))
  let _authToken ← call .getAuthToken
  let refund ← tryCatch
    (withRetries (call (.refundAttempt transactionId amountCents)) config.retryMaxAttempts)
    fun error => throw (.paymobGateway "refund" (describeFetchError platform error))
  return {
    refundId := refund.refundId.getD refund.id
    success := refund.success = some true
    pending := refund.pending = some true
    isRefund := refund.isRefund = some true
    raw := refund.raw }

end Payments
