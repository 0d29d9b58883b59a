import Mathlib.Algebra.Order.Ring.Unbundled.Rat

/-!
# JSON values

What `JSON.parse` returns. A number is the rational the text denotes; the checks
on numbers that the schemas make (integer, positive, bounded) are about its value.
-/

namespace Common

inductive Json where
  | null
  | bool (b : Bool)
  | num (value : Rat)
  | str (text : String)
  | arr (items : List Json)
  | obj (fields : List (String × Json))

namespace Json

def int (z : Int) : Json := num z

/-- `value[key]`, `undefined` being `none`. -/
def field? (json : Json) (key : String) : Option Json :=
  match json with
  | obj fields => fields.lookup key
  | _ => none

/-- `typeof value[key] === 'string' ? value[key] : null`. -/
def stringField? (json : Json) (key : String) : Option String :=
  match json.field? key with
  | some (str text) => some text
  | _ => none

/-- `typeof value[key] === 'number' ? value[key] : null`. -/
def numberField? (json : Json) (key : String) : Option Rat :=
  match json.field? key with
  | some (num value) => some value
  | _ => none

end Json

/-- `Number.isInteger(value)`, with the integer. -/
def integer? (value : Rat) : Option Int := if value.den = 1 then some value.num else none

theorem integer?_intCast (z : Int) : integer? (z : Rat) = some z := by
  simp [integer?]

/-!
## What the runtime provides

The functions of Node and of the schema library that the payments module calls.
Nothing is assumed about them: every theorem holds for all of them.
-/

abbrev Bytes := List UInt8

structure Platform where
  /-- `crypto.createHmac('sha256', secret).update(body).digest()` -/
  hmacSha256 : String → String → Bytes
  /-- `crypto.createHash('sha256').update(bytes).digest()` -/
  sha256 : Bytes → Bytes
  /-- `JSON.parse`, `none` when it throws -/
  parseJson : String → Option Json
  /-- `String(value)` of a number -/
  numberText : Rat → String
  /-- `text.trim()` -/
  trim : String → String
  /-- `text.toUpperCase()` -/
  toUpperCase : String → String
  /-- The `message` of a `ZodError` with these issues. -/
  zodErrorText : List String → String

/-- For evaluation on texts that `trim` and `toUpperCase` leave alone. -/
def Platform.plain : Platform where
  hmacSha256 _ _ := []
  sha256 _ := []
  parseJson _ := none
  numberText value := toString value.num
  trim := id
  toUpperCase := id
  zodErrorText issues := "; ".intercalate issues

def hexDigit? (c : Char) : Option Nat :=
  if '0' ≤ c ∧ c ≤ '9' then some (c.toNat - '0'.toNat)
  else if 'a' ≤ c ∧ c ≤ 'f' then some (c.toNat - 'a'.toNat + 10)
  else if 'A' ≤ c ∧ c ≤ 'F' then some (c.toNat - 'A'.toNat + 10)
  else none

/-- `Buffer.from(text, 'hex')` stops silently at the first pair that is not two hex digits. -/
def bytesOfHexDigits : List Char → Bytes
  | high :: low :: rest =>
    match hexDigit? high, hexDigit? low with
    | some h, some l => UInt8.ofNat (16 * h + l) :: bytesOfHexDigits rest
    | _, _ => []
  | _ => []

def bufferFromHex (text : String) : Bytes := bytesOfHexDigits text.toList

/-- A request body, what it parses to, and its digests as hex: the one under the
secret `secret`, and that one's fingerprint. -/
structure SignedBody where
  text : String
  json : Json
  digest : String
  fingerprint : String

/-- The platform on a few signed bodies. -/
def Platform.ofBodies (bodies : List SignedBody) : Platform :=
  { Platform.plain with
    hmacSha256 := fun _ text =>
      ((bodies.find? (·.text = text)).map (bufferFromHex ·.digest)).getD []
    sha256 := fun bytes =>
      ((bodies.find? (bufferFromHex ·.digest = bytes)).map (bufferFromHex ·.fingerprint)).getD []
    parseJson := fun text => (bodies.find? (·.text = text)).map (·.json) }

end Common
