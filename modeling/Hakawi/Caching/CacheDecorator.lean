import Hakawi.Html.Units
import Mathlib.Data.List.Sort

/-!
# Keys of cached responses

`buildCacheKey`. The query is what the parser of the application makes of it: distinct
names, each with its values in the order of arrival, one of them as a string and
several as an array of strings.
-/

namespace Caching
open Html

structure CacheKeyContext where
  /-- `String(request[name])`, where there is such a property. -/
  request : Units → Option Units
  query : Option (List (Units × List Units))
  params : Units → Option Units
  userId : Option Units
  route : Units

structure ResolvedCacheOptions where
  cacheNamespace : Units
  keyParams : List Units
  key : Option (CacheKeyContext → Units)

def COLON : UInt16 := unit ':'
def EQUALS : UInt16 := unit '='
def AMPERSAND : UInt16 := unit '&'
def COMMA : UInt16 := unit ','

/-- `text.replace(/u/g, replacement)` -/
def replaceAll (u : UInt16) (replacement text : Units) : Units :=
  text.flatMap fun v => if v = u then replacement else [v]

def escapeSegment (value : Units) : Units :=
  replaceAll COLON [BACKSLASH, COLON] (replaceAll BACKSLASH [BACKSLASH, BACKSLASH] value)

def queryValueToString (values : List Units) : Units := [COMMA].intercalate values

/-- A stable sort, like that of an array. -/
def sortedByName (query : List (Units × List Units)) : List (Units × List Units) :=
  query.insertionSort fun left right => ¬ right.1 < left.1

def canonicalQuery (query : Option (List (Units × List Units))) : List Units :=
  match query with
  | none => []
  | some entries =>
    (sortedByName (entries.filter fun entry => 0 < entry.1.length)).map fun entry =>
      escapeSegment entry.1 ++ [EQUALS] ++ escapeSegment (queryValueToString entry.2)

namespace ResolvedCacheOptions
variable (options : ResolvedCacheOptions) (context : CacheKeyContext)

def keyParamValues : List Units :=
  options.keyParams.map fun name =>
    ((context.params name).orElse fun _ => context.request name).getD []

def userScope : Units :=
  match context.userId with
  | none => units "anon"
  | some userId => units "u:" ++ userId

def segments : List Units :=
  [context.route, userScope context] ++
  (if (options.keyParamValues context).length > 0 then
    [units "p:" ++ [COLON].intercalate ((options.keyParamValues context).map escapeSegment)]
  else []) ++
  (if (canonicalQuery context.query).length > 0 then
    [units "q:" ++ [AMPERSAND].intercalate (canonicalQuery context.query)]
  else [])

def buildCacheKey : Units :=
  units "cache:" ++ options.cacheNamespace ++ [COLON] ++
    match options.key with
    | some key => key context
    | none => [COLON].intercalate (options.segments context)

end ResolvedCacheOptions
end Caching
