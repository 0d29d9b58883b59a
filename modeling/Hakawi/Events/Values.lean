import Hakawi.Common.Platform

/-!
# Values and their passage through JSON

A payload is a tree of values of the language. `JSON.stringify` and `JSON.parse` take it to
another one: dates come back as texts, numbers that are not finite as null, and fields that are
undefined not at all. A payload that holds none of these comes back as it was.
-/

namespace Events
open Common

inductive Value where
  | undefined
  | null
  | bool (b : Bool)
  | nan
  | infinity (negative : Bool)
  | num (value : Rat)
  | str (text : String)
  /-- In milliseconds; `none` is the invalid date. -/
  | date (time : Option Int)
  | arr (items : List Value)
  | obj (fields : List (String × Value))

namespace Value

/-- `value[key]` -/
def field (fields : List (String × Value)) (key : String) : Value :=
  (fields.lookup key).getD .undefined

section Json
variable (toISOString : Int → String)

mutual

/-- `none` where `JSON.stringify` leaves the value out. -/
def toJson : Value → Option Json
  | .undefined => none
  | .null | .nan | .infinity _ | .date none => some .null
  | .bool b => some (.bool b)
  | .num value => some (.num value)
  | .str text => some (.str text)
  | .date (some time) => some (.str (toISOString time))
  | .arr items => some (.arr (itemsToJson items))
  | .obj fields => some (.obj (fieldsToJson fields))

def itemsToJson : List Value → List Json
  | [] => []
  | item :: rest => item.toJson.getD .null :: itemsToJson rest

def fieldsToJson : List (String × Value) → List (String × Json)
  | [] => []
  | (key, value) :: rest => (value.toJson.map (key, ·)).toList ++ fieldsToJson rest

end

mutual

/-- What `JSON.parse` makes of a text. -/
def ofJson : Json → Value
  | .null => .null
  | .bool b => .bool b
  | .num value => .num value
  | .str text => .str text
  | .arr items => .arr (itemsOfJson items)
  | .obj fields => .obj (fieldsOfJson fields)

def itemsOfJson : List Json → List Value
  | [] => []
  | item :: rest => ofJson item :: itemsOfJson rest

def fieldsOfJson : List (String × Json) → List (String × Value)
  | [] => []
  | (key, value) :: rest => (key, ofJson value) :: fieldsOfJson rest

end

/-- A field that is stringified and parsed with the object it is in. -/
def throughJson (value : Value) : Value := (value.toJson toISOString).elim .undefined ofJson

end Json

mutual

/-- Neither a date nor undefined nor a number that is not finite, and none inside. -/
def isPlain : Value → Bool
  | .undefined | .nan | .infinity _ | .date _ => false
  | .null | .bool _ | .num _ | .str _ => true
  | .arr items => itemsPlain items
  | .obj fields => fieldsPlain fields

def itemsPlain : List Value → Bool
  | [] => true
  | item :: rest => item.isPlain && itemsPlain rest

def fieldsPlain : List (String × Value) → Bool
  | [] => true
  | (_, value) :: rest => value.isPlain && fieldsPlain rest

end

section RoundTrip
variable {toISOString : Int → String}

mutual

theorem toJson_of_isPlain : (value : Value) → value.isPlain →
    (value.toJson toISOString).map ofJson = some value
  | .null, _ => rfl
  | .bool _, _ => rfl
  | .num _, _ => rfl
  | .str _, _ => rfl
  | .arr items, plain => by
    rw [toJson, Option.map_some, ofJson, items_of_isPlain items plain]
  | .obj fields, plain => by
    rw [toJson, Option.map_some, ofJson, fields_of_isPlain fields plain]

theorem items_of_isPlain : (items : List Value) → itemsPlain items →
    itemsOfJson (itemsToJson toISOString items) = items
  | [], _ => rfl
  | item :: rest, plain => by
    obtain ⟨here, later⟩ := Bool.and_eq_true_iff.mp plain
    have back := toJson_of_isPlain item here
    rw [itemsToJson, itemsOfJson, items_of_isPlain rest later]
    cases written : item.toJson toISOString with
    | none =>
      rw [written] at back
      cases back
    | some json =>
      rw [written] at back
      exact congrArg (· :: rest) (Option.some.inj back)

theorem fields_of_isPlain : (fields : List (String × Value)) → fieldsPlain fields →
    fieldsOfJson (fieldsToJson toISOString fields) = fields
  | [], _ => rfl
  | (key, value) :: rest, plain => by
    obtain ⟨here, later⟩ := Bool.and_eq_true_iff.mp plain
    have back := toJson_of_isPlain value here
    rw [fieldsToJson]
    cases written : value.toJson toISOString with
    | none =>
      rw [written] at back
      cases back
    | some json =>
      rw [written] at back
      change (key, ofJson json) :: fieldsOfJson (fieldsToJson toISOString rest) = _
      rw [fields_of_isPlain rest later, Option.some.inj back]

end

mutual

/-- What is parsed is plain. -/
theorem isPlain_ofJson : (json : Json) → (ofJson json).isPlain
  | .null => rfl
  | .bool _ => rfl
  | .num _ => rfl
  | .str _ => rfl
  | .arr items => itemsPlain_ofJson items
  | .obj fields => fieldsPlain_ofJson fields

theorem itemsPlain_ofJson : (items : List Json) → itemsPlain (itemsOfJson items)
  | [] => rfl
  | item :: rest =>
    Bool.and_eq_true_iff.mpr ⟨isPlain_ofJson item, itemsPlain_ofJson rest⟩

theorem fieldsPlain_ofJson : (fields : List (String × Json)) → fieldsPlain (fieldsOfJson fields)
  | [] => rfl
  | (_, value) :: rest =>
    Bool.and_eq_true_iff.mpr ⟨isPlain_ofJson value, fieldsPlain_ofJson rest⟩

end

/-- A value comes back as it was exactly if it is plain, or not there at all. -/
theorem throughJson_eq_self_iff (value : Value) :
    value.throughJson toISOString = value ↔ value.isPlain ∨ value = .undefined := by
  constructor
  · intro same
    rw [throughJson] at same
    cases written : value.toJson toISOString with
    | none =>
      rw [written] at same
      exact Or.inr same.symm
    | some json =>
      rw [written] at same
      left
      rw [← same]
      exact isPlain_ofJson json
  · rintro (plain | rfl)
    · have back : (value.toJson toISOString).map ofJson = some value :=
        toJson_of_isPlain value plain
      rw [throughJson]
      cases written : value.toJson toISOString with
      | none =>
        rw [written] at back
        cases back
      | some json =>
        rw [written] at back
        exact Option.some.inj back
    · rfl

end RoundTrip
end Value
end Events
