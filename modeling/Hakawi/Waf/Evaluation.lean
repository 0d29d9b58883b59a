import Hakawi.Waf.Rules

/-!
# What the firewall inspects

The values of a request, in the order they are collected: the URL, the query, the
headers, and the strings of the body. Every collection stops at the same number.
-/

namespace Waf
open Html

/-- A query parameter or a header: a string, an array with some strings in it, or
something else. -/
inductive Field where
  | one (text : Units)
  | many (items : List (Option Units))
  | other

/-- The strings of a field. -/
def Field.strings : Field → List Units
  | one text => [text]
  | many items => items.filterMap id
  | other => []

structure Request where
  method : Option String
  originalUrl : Option Units
  url : Option Units
  query : Option (List (Units × Field))
  headers : List (Units × Field)
  body : Option Value
  rawBody : Option Units
  ip : Option Units
  remoteAddress : Option Units

namespace Request

/-- `req.headers[name]` -/
def header? (request : Request) (name : String) : Option Field :=
  request.headers.lookup (units name)

end Request

structure InspectableValue where
  target : WafTarget
  value : Units
  deriving DecidableEq, Repr

def MAX_INSPECTED_VALUES : Nat := 200
def MAX_INSPECTED_LENGTH : Nat := 4096
def MAX_BODY_DEPTH : Nat := 8
def MAX_DECODE_PASSES : Nat := 8

def clampString (value : Units) : Units :=
  if value.length > MAX_INSPECTED_LENGTH then value.take MAX_INSPECTED_LENGTH else value

def measureBodyBytes (request : Request) : Nat :=
  match request.rawBody with
  | some raw => byteLength raw
  | none => match request.body with
    | none | some .null => 0
    | some (.string text) => byteLength text
    | some body => byteLength (stringify body)

def headerAsString : Option Field → Units
  | some (.one text) => text
  | some (.many (some first :: _)) => first
  | _ => []

def decodePasses : Nat → Units → Units
  | 0, decoded => decoded
  | passes + 1, decoded => match decodeURIComponent decoded with
    | none => decoded
    | some next => if next = decoded then decoded else decodePasses passes next

def decodeForInspection (value : Units) : Units :=
  (decodePasses MAX_DECODE_PASSES value).map fun u => if u = 43 then 32 else u

mutual
def collectBodyStrings (value : Value) (depth : Nat) (sink : List Units) : List Units :=
  match value with
  | .string text =>
    if sink.length ≥ MAX_INSPECTED_VALUES ∨ depth > MAX_BODY_DEPTH then sink
    else sink ++ [clampString text]
  | .array entries =>
    if sink.length ≥ MAX_INSPECTED_VALUES ∨ depth > MAX_BODY_DEPTH then sink
    else
      collectEntries entries (depth + 1)
        (if entries.isEmpty then sink else sink ++ [clampString (stringify (.array entries))])
  | .object fields =>
    if sink.length ≥ MAX_INSPECTED_VALUES ∨ depth > MAX_BODY_DEPTH then sink
    else
      collectFields fields (depth + 1)
        (if fields.isEmpty then sink else sink ++ [clampString (stringify (.object fields))])
  | _ => sink

/-- The loop over an array. -/
def collectEntries (entries : List Value) (depth : Nat) (sink : List Units) : List Units :=
  match entries with
  | [] => sink
  | entry :: rest =>
    let sink' := collectBodyStrings entry depth sink
    if sink'.length ≥ MAX_INSPECTED_VALUES then sink' else collectEntries rest depth sink'

/-- The loop over the fields of an object. -/
def collectFields (fields : List (Units × Value)) (depth : Nat) (sink : List Units) : List Units :=
  match fields with
  | [] => sink
  | (key, entry) :: rest =>
    let sink' := collectBodyStrings entry depth (sink ++ [clampString key])
    if sink'.length ≥ MAX_INSPECTED_VALUES then sink' else collectFields rest depth sink'
end

/-- The loop of `queryValuesOf` and of `headerValuesOf`, which differ in what they make of
a name. -/
def fieldValues (nameOf : Units → Units) : List (Units × Field) → List Units → List Units
  | [], values => values
  | (name, field) :: rest, values =>
    let values' := values ++ nameOf name :: field.strings.map clampString
    if values'.length ≥ MAX_INSPECTED_VALUES then values' else fieldValues nameOf rest values'

def queryValuesOf (request : Request) : List Units :=
  match request.query with
  | none => []
  | some fields => fieldValues clampString fields []

def headerValuesOf (request : Request) : List Units := fieldValues lowerCase request.headers []

def bodyStringsOf (request : Request) : List Units :=
  match request.body with
  | none => []
  | some body => collectBodyStrings body 0 []

def push (target : WafTarget) (values : List InspectableValue) (raw : Units) :
    List InspectableValue :=
  if values.length ≥ MAX_INSPECTED_VALUES then values
  else if decodeForInspection raw = [] then values
  else values ++ [⟨target, decodeForInspection raw⟩]

/-- `originalUrl`, or `url` where that is missing or empty. -/
def urlOf (request : Request) : Option Units :=
  match request.originalUrl with
  | some (u :: rest) => some (u :: rest)
  | _ => request.url

def urlValuesOf (request : Request) : List Units :=
  match urlOf request with
  | none | some [] => []
  | some url => [url]

def collectInspectableValues (request : Request) : List InspectableValue :=
  let values := (urlValuesOf request).foldl (push .url) []
  let values := (queryValuesOf request).foldl (push .query) values
  let values := (headerValuesOf request).foldl (push .header) values
  (bodyStringsOf request).foldl (push .body) values

/-!
## Which rules a request violates
-/

/-- `GeoIpService`, whose country database is a package. -/
structure GeoIp where
  isBlocked : Units → Bool
  lookupCountryCode : Units → Option Units

inductive IpSource where
  | forwarded
  | socket
  | unknown
  deriving DecidableEq, Repr

structure ClientIpResolution where
  ip : Units
  source : IpSource
  trustProxy : Bool
  deriving DecidableEq, Repr

/-- `Content-Length` when it is present and sane, else what was received. -/
def observedBytes (request : Request) : Nat :=
  match parseInt (headerAsString (request.header? "content-length")) with
  | some contentLength => if contentLength > 0 then contentLength.toNat else measureBodyBytes request
  | none => measureBodyBytes request

/-- The first address of the forwarded header, `none` when there is none to be read. -/
def forwardedIp (request : Request) : Option Units :=
  let raw := match request.header? "x-forwarded-for" with
    | some (.one text) => some text
    | some (.many (first :: _)) => first
    | _ => none
  raw.bind fun text =>
    let first := trim (text.takeWhile (· ≠ 44))
    if first.length > 0 then some first else none

def resolveClientIp (request : Request) (trustProxy : Bool) : ClientIpResolution :=
  match if trustProxy then forwardedIp request else none with
  | some first => ⟨first, .forwarded, true⟩
  | none => match request.ip.orElse fun _ => request.remoteAddress with
    | some socketIp => ⟨socketIp, .socket, trustProxy⟩
    | none => ⟨units "unknown", .unknown, trustProxy⟩

structure WafViolation where
  ruleId : String
  ruleName : String
  layer : String
  severity : WafSeverity
  target : WafTarget
  sample : Units
  deriving DecidableEq, Repr

def WafRule.violation (rule : WafRule) (target : WafTarget) (sample : Units) : WafViolation :=
  ⟨rule.id, rule.name, rule.layer, rule.severity, target, sample⟩

def decimal (n : Nat) : Units := units (toString n)

/-- What the middleware is made with. -/
structure WafMiddleware where
  config : WafConfig
  WAF_RULES : List WafRule
  geoIp : GeoIp

namespace WafMiddleware
variable (waf : WafMiddleware) (request : Request)

def ipOf : Units := (resolveClientIp request waf.config.trustProxy).ip

def geoViolation (rule : WafRule) : Option WafViolation :=
  if waf.geoIp.isBlocked (waf.ipOf request) then
    some (rule.violation .header (units "X-Forwarded-For: " ++ waf.ipOf request ++ units " (" ++
      (waf.geoIp.lookupCountryCode (waf.ipOf request)).getD (units "??") ++ units ")"))
  else none

/-- What `evaluateNonPatternRules` makes of one rule. -/
def nonPatternViolation (rule : WafRule) : Option WafViolation :=
  if !waf.config.isRuleActive rule then none
  else match rule.kind with
    | .allowedMethods allowed =>
      let method := (request.method.getD "").toUpper
      let allowed :=
        if waf.config.allowedMethods.length > 0 then waf.config.allowedMethods else allowed
      if method ∈ allowed then none else some (rule.violation .url (units method))
    | .maxBytes maxBytes =>
      if rule.id = "geo-blocked-country" then waf.geoViolation request rule
      else
        let maxBytes :=
          if rule.id = "body-size-limit" then waf.config.maxRequestSizeBytes else maxBytes
        if observedBytes request > maxBytes then
          some (rule.violation .body (decimal (observedBytes request)))
        else none
    | _ => if rule.id = "geo-blocked-country" then waf.geoViolation request rule else none

def evaluateNonPatternRules : List WafViolation :=
  waf.WAF_RULES.filterMap (waf.nonPatternViolation request)

/-- The rule fires on a value of one of its targets. -/
def matchesCandidate (rule : WafRule) (candidate : InspectableValue) : Bool :=
  candidate.target ∈ rule.targets && rule.kind.matchesValue candidate.value

/-- What `evaluate` makes of one rule: its first match. -/
def patternViolation (values : List InspectableValue) (rule : WafRule) : Option WafViolation :=
  if !waf.config.isRuleActive rule then none
  else (values.find? (matchesCandidate rule)).map fun candidate =>
    rule.violation candidate.target (candidate.value.take 120)

def evaluate : List WafViolation :=
  waf.evaluateNonPatternRules request ++
    waf.WAF_RULES.filterMap (waf.patternViolation (collectInspectableValues request))

/-- The violations that get a request refused. -/
def blocking : List WafViolation :=
  (waf.evaluate request).filter fun violation =>
    isSeverityAtLeast violation.severity waf.config.blockSeverity

end WafMiddleware

/-- The default firewall with three rules of the catalogue, no country being blocked. -/
def defaultWaf : WafMiddleware where
  config := DEFAULT_WAF_CONFIG
  WAF_RULES := [headerCrlfInjection, xssDataUri, traversalNullByte]
  geoIp := ⟨fun _ => false, fun _ => none⟩

/-- `GET url` from an address. -/
def getRequest (ip : String) (url : String) (query : List (Units × Field)) : Request where
  method := some "GET"
  originalUrl := some (units url)
  url := some (units url)
  query := some query
  headers := []
  body := none
  rawBody := none
  ip := some (units ip)
  remoteAddress := none

end Waf
