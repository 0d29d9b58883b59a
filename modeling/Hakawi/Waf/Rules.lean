import Hakawi.Html.Units

/-!
# String functions the firewall uses

`decodeURIComponent`, `JSON.stringify`, `Buffer.byteLength` and `Number.parseInt`,
on strings of code units.
-/

namespace Waf
open Html

def hexValue (u : UInt16) : Nat :=
  if isDigit u then u.toNat - 48 else if 97 ≤ u then u.toNat - 87 else u.toNat - 55

/-- The byte of a `%XX` at the start, and the rest. -/
def escapedByte : Units → Option (Nat × Units)
  | 37 :: high :: low :: rest =>
    if isHexDigit high && isHexDigit low then some (16 * hexValue high + hexValue low, rest)
    else none
  | _ => none

/-- The six bits of a continuation byte, and the rest. -/
def continuationBits (text : Units) : Option (Nat × Units) :=
  (escapedByte text).bind fun (byte, rest) =>
    if 0x80 ≤ byte ∧ byte < 0xc0 then some (byte - 0x80, rest) else none

/-- The code point that escapes at the start encode in UTF-8, and the rest. -/
def escapedCodePoint (text : Units) : Option (Nat × Units) := do
  let (first, rest) ← escapedByte text
  if first < 0x80 then return (first, rest)
  let (second, rest) ← continuationBits rest
  if 0xc2 ≤ first ∧ first < 0xe0 then return ((first - 0xc0) * 64 + second, rest)
  let (third, rest) ← continuationBits rest
  if 0xe0 ≤ first ∧ first < 0xf0 then
    let codePoint := ((first - 0xe0) * 64 + second) * 64 + third
    if codePoint < 0x800 ∨ (0xd800 ≤ codePoint ∧ codePoint < 0xe000) then none
    else return (codePoint, rest)
  let (fourth, rest) ← continuationBits rest
  if 0xf0 ≤ first ∧ first < 0xf8 then
    let codePoint := (((first - 0xf0) * 64 + second) * 64 + third) * 64 + fourth
    if codePoint < 0x10000 ∨ 0x10ffff < codePoint then none else return (codePoint, rest)
  none

/-- `fuel` is a bound on the length of the text. -/
def decodeWith : Nat → Units → Option Units
  | _, [] => some []
  | 0, _ => none
  | fuel + 1, u :: rest =>
    if u = 37 then do
      let (codePoint, rest) ← escapedCodePoint (u :: rest)
      return fromCodePoint codePoint ++ (← decodeWith fuel rest)
    else (decodeWith fuel rest).map (u :: ·)

/-- `decodeURIComponent`, `none` when it throws. -/
def decodeURIComponent (text : Units) : Option Units := decodeWith text.length text

def isHighSurrogate (u : UInt16) : Bool := 0xd800 ≤ u && u < 0xdc00
def isLowSurrogate (u : UInt16) : Bool := 0xdc00 ≤ u && u < 0xe000

def hexDigit (n : Nat) : UInt16 := (if n < 10 then 48 + n else 87 + n).toUInt16

/-- A unit that stands alone in a JSON string. -/
def quoteUnit (u : UInt16) : Units :=
  if u = 8 then units "\\b"
  else if u = 9 then units "\\t"
  else if u = 10 then units "\\n"
  else if u = 12 then units "\\f"
  else if u = 13 then units "\\r"
  else if u = DOUBLE_QUOTE ∨ u = BACKSLASH then [BACKSLASH, u]
  else if u < 32 ∨ isHighSurrogate u ∨ isLowSurrogate u then
    units "\\u" ++ [hexDigit (u.toNat / 4096), hexDigit (u.toNat / 256 % 16),
      hexDigit (u.toNat / 16 % 16), hexDigit (u.toNat % 16)]
  else [u]

def quoteUnits : Units → Units
  | [] => []
  | [u] => quoteUnit u
  | u :: v :: rest =>
    if isHighSurrogate u && isLowSurrogate v then u :: v :: quoteUnits rest
    else quoteUnit u ++ quoteUnits (v :: rest)

def quote (text : Units) : Units := DOUBLE_QUOTE :: quoteUnits text ++ [DOUBLE_QUOTE]

/-- A parsed body. A number is the text that `JSON.stringify` prints for it, and the
fields of an object are in the order of `Object.entries`. -/
inductive Value where
  | null
  | bool (b : Bool)
  | number (printed : Units)
  | string (text : Units)
  | array (entries : List Value)
  | object (fields : List (Units × Value))

mutual
/-- `JSON.stringify` -/
def stringify : Value → Units
  | .null => units "null"
  | .bool b => units (if b then "true" else "false")
  | .number printed => printed
  | .string text => quote text
  | .array entries => units "[" ++ stringifyEntries entries ++ units "]"
  | .object fields => units "\x7b" ++ stringifyFields fields ++ units "\x7d"

def stringifyEntries : List Value → Units
  | [] => []
  | [entry] => stringify entry
  | entry :: next :: rest => stringify entry ++ units "," ++ stringifyEntries (next :: rest)

def stringifyFields : List (Units × Value) → Units
  | [] => []
  | [(key, entry)] => quote key ++ units ":" ++ stringify entry
  | (key, entry) :: next :: rest =>
    quote key ++ units ":" ++ stringify entry ++ units "," ++ stringifyFields (next :: rest)
end

/-- `Buffer.byteLength(text, 'utf8')`; a surrogate that stands alone is replaced by a
character of three bytes. -/
def byteLength : Units → Nat
  | [] => 0
  | [u] => if u < 0x80 then 1 else if u < 0x800 then 2 else 3
  | u :: v :: rest =>
    if isHighSurrogate u && isLowSurrogate v then 4 + byteLength rest
    else (if u < 0x80 then 1 else if u < 0x800 then 2 else 3) + byteLength (v :: rest)

/-- `Number.parseInt(text, 10)`, `none` for `NaN`. -/
def parseInt (text : Units) : Option Int :=
  let (negative, digits) := match text.dropWhile isSpace with
    | 45 :: rest => (true, rest)
    | 43 :: rest => (false, rest)
    | rest => (false, rest)
  match digits.takeWhile isDigit with
  | [] => none
  | shown =>
    let value : Int := shown.foldl (fun value u => 10 * value + (u.toNat - 48 : Int)) 0
    some (if negative then -value else value)

/-- A string as characters; header text and addresses have no surrogates. -/
def text (units : Units) : String := String.ofList (units.map fun u => Char.ofNat u.toNat)

example : decodeURIComponent (units "a%20b%c3%a9%2") = none := by decide
example : decodeURIComponent (units "%e2%82%ac%2525") = some [0x20ac, 37, 50, 53] := by decide
example : stringify (.array [.string (units "data:"), .string (units "html")]) =
    units "[\"data:\",\"html\"]" := by decide

/-!
## Firewall rules

The rule types and the two questions asked of a rule. The catalogue of rules is a
parameter of the firewall; a regular expression is the test it makes. Three rules
of the catalogue are written out.
-/

inductive WafSeverity where
  | low
  | medium
  | high
  | critical
  deriving DecidableEq, Repr

inductive WafTarget where
  | url
  | query
  | body
  | header
  deriving DecidableEq, Repr

inductive WafOptInControl where
  | blockForwardingHeaders
  | geoBlocking
  deriving DecidableEq, Repr

/-- `WAF_SEVERITY_RANK` -/
def WafSeverity.rank : WafSeverity → Nat
  | low => 0
  | medium => 1
  | high => 2
  | critical => 3

def isSeverityAtLeast (severity minimum : WafSeverity) : Bool := minimum.rank ≤ severity.rank

/-- What sets the four kinds of rules apart. -/
inductive WafRuleKind where
  | pattern (test : Units → Bool) (requiresAny : Option (List (Units → Bool)))
  | controlChar (char : Units)
  | maxBytes (maxBytes : Nat)
  | allowedMethods (allowed : List String)

structure WafRule where
  id : String
  name : String
  layer : String
  severity : WafSeverity
  targets : List WafTarget
  enabledByDefault : Bool
  optInControl : Option WafOptInControl
  kind : WafRuleKind

def matchesRuleValue (test : Units → Bool) (requiresAny : Option (List (Units → Bool)))
    (value : Units) : Bool :=
  if !test value then false
  else match requiresAny with
    | none | some [] => true
    | some requirements => requirements.any fun requirement => requirement value

/-- What `evaluate` asks of a rule and a value; the rules of the other kinds are not asked. -/
def WafRuleKind.matchesValue (value : Units) : WafRuleKind → Bool
  | pattern test requiresAny => matchesRuleValue test requiresAny value
  | controlChar char => (search char value).isSome
  | maxBytes _ | allowedMethods _ => false

/-- `header-crlf-injection` of the catalogue -/
def headerCrlfInjection : WafRule where
  id := "header-crlf-injection"
  name := "CR/LF injection attempt in a header, path or query value"
  layer := "header-injection"
  severity := .critical
  targets := [.header, .url, .query]
  enabledByDefault := true
  optInControl := none
  kind := .pattern (fun value => ["%0d%0a", "%0a", "%0d", "%00", "\r", "\n"].any fun piece =>
    (search (units piece) (lowerCase value)).isSome) none

/-- What follows `\bdata` in the pattern of `xss-data-uri`. -/
def dataUriRest (value : Units) : Bool :=
  match value.dropWhile isSpace with
  | 58 :: rest =>
    let media := rest.dropWhile isSpace
    (List.range 121).any fun k =>
      (media.take k).all (fun u => !isSpace u && u != 59) &&
        ["base64", "script", "html"].any fun word => startsWith media (units word) k
  | _ => false

def dataUriFrom (afterWord : Bool) : Units → Bool
  | [] => false
  | u :: rest =>
    (!afterWord && startsWith (u :: rest) (units "data") 0 && dataUriRest (rest.drop 3)) ||
      dataUriFrom (isAlphanumeric u || u == 95) rest

/-- `xss-data-uri` of the catalogue -/
def xssDataUri : WafRule where
  id := "xss-data-uri"
  name := "data: URI with executable content"
  layer := "xss"
  severity := .high
  targets := [.url, .query, .body]
  enabledByDefault := true
  optInControl := none
  kind := .pattern (fun value => dataUriFrom false (lowerCase value)) none

/-- `traversal-null-byte` of the catalogue -/
def traversalNullByte : WafRule where
  id := "traversal-null-byte"
  name := "Null byte in the request target"
  layer := "traversal"
  severity := .high
  targets := [.url, .query]
  enabledByDefault := true
  optInControl := none
  kind := .controlChar [0]

inductive WafFailMode where
  | opened
  | closed
  deriving DecidableEq, Repr

structure WafConfig where
  enabled : Bool
  blockOnViolation : Bool
  failMode : WafFailMode
  blockSeverity : WafSeverity
  disabledRules : List String
  maxRequestSizeBytes : Nat
  allowedMethods : List String
  tempBlockSeconds : Int
  violationWindowSeconds : Int
  violationsBeforeTempBlock : Int
  violationsBeforePermanentBlock : Int
  enabledOptInControls : List WafOptInControl
  trustProxy : Bool

def DEFAULT_WAF_CONFIG : WafConfig where
  enabled := true
  blockOnViolation := true
  failMode := .opened
  blockSeverity := .high
  disabledRules := []
  maxRequestSizeBytes := 10 * 1024 * 1024
  allowedMethods := ["GET", "POST", "PUT", "PATCH", "DELETE", "OPTIONS", "HEAD"]
  tempBlockSeconds := 3600
  violationWindowSeconds := 900
  violationsBeforeTempBlock := 5
  violationsBeforePermanentBlock := 25
  enabledOptInControls := []
  trustProxy := false

/-- The numbers that the environment schema coerces are positive integers. -/
def WafConfig.Valid (config : WafConfig) : Prop :=
  0 < config.tempBlockSeconds ∧ 0 < config.violationWindowSeconds ∧
    0 < config.violationsBeforeTempBlock ∧ 0 < config.violationsBeforePermanentBlock

namespace WafConfig

def isRuleActive (config : WafConfig) (rule : WafRule) : Bool :=
  if rule.id.toUpper ∈ config.disabledRules then false
  else match rule.optInControl with
    | some control => control ∈ config.enabledOptInControls
    | none => rule.enabledByDefault

end WafConfig

end Waf
