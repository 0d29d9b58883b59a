import Hakawi.Events.DeadLetters

/-!
# What a replay delivers

A replay delivers the payload as it came back through JSON. It is the one that was parked, with a
date wherever its schema reads a date, exactly if it is plain and nothing stands where its schema
reads a date.
-/

namespace Events
open Common

section Dates
variable (test : Value → Bool)

mutual

/-- Whatever stands where a schema reads a date passes a test. -/
def Schema.dates : Schema → Value → Bool
  | .date, value | .requiredTimestamp, value => test value
  | .nullable schema, value => match value with
    | .null => true
    | other => schema.dates other
  | .optional schema, value => match value with
    | .undefined => true
    | other => schema.dates other
  | .object shape, value => match value with
    | .obj fields => shapeDates shape fields
    | _ => true
  | .string, _ | .email, _ | .number, _ | .enum _, _ | .record, _ => true

def shapeDates : List (String × Schema) → List (String × Value) → Bool
  | [], _ => true
  | (key, schema) :: shape, fields =>
    schema.dates (Value.field fields key) && shapeDates shape fields

end

end Dates

def Value.isDate : Value → Bool
  | .date _ => true
  | _ => false

/-- Where a date is read there is one. -/
def Event.givesDates (event : Event) : Bool :=
  (EVENT_SCHEMAS.lookup event.name).all fun schema => schema.dates Value.isDate event.payload

/-- Where a date is read there is nothing. -/
def Event.dateless (event : Event) : Bool :=
  (EVENT_SCHEMAS.lookup event.name).all fun schema => schema.dates (fun _ => false) event.payload

/-- What a plain payload holds: a plain value, or nothing. -/
def Value.isPlainOrNone (value : Value) : Prop := value.isPlain ∨ value = .undefined

theorem Value.isDate_of_isPlainOrNone {value : Value} (plain : value.isPlainOrNone) :
    value.isDate = false := by
  rcases plain with plain | rfl
  · cases value with
    | date time => cases plain
    | _ => rfl
  · rfl

theorem Value.field_isPlainOrNone {fields : List (String × Value)} (plain : fieldsPlain fields)
    (key : String) : (field fields key).isPlainOrNone := by
  induction fields with
  | nil => exact Or.inr rfl
  | cons entry rest ih =>
    obtain ⟨name, value⟩ := entry
    obtain ⟨here, later⟩ := Bool.and_eq_true_iff.mp plain
    rw [field, List.lookup_cons]
    split
    · exact Or.inl here
    · exact ih later

mutual

/-- A plain payload has no dates to give. -/
theorem Schema.dates_of_plain : (schema : Schema) → (value : Value) → value.isPlainOrNone →
    schema.dates Value.isDate value = schema.dates (fun _ => false) value
  | .date, value, plain => Value.isDate_of_isPlainOrNone plain
  | .requiredTimestamp, value, plain => Value.isDate_of_isPlainOrNone plain
  | .nullable schema, value, plain => by
    have inner := schema.dates_of_plain value plain
    cases value with
    | null => rfl
    | _ => exact inner
  | .optional schema, value, plain => by
    have inner := schema.dates_of_plain value plain
    cases value with
    | undefined => rfl
    | _ => exact inner
  | .object shape, value, plain => by
    cases value with
    | obj fields => exact shapeDates_of_plain shape fields (plain.resolve_right nofun)
    | _ => rfl
  | .string, _, _ => rfl
  | .email, _, _ => rfl
  | .number, _, _ => rfl
  | .enum _, _, _ => rfl
  | .record, _, _ => rfl

theorem shapeDates_of_plain : (shape : List (String × Schema)) →
    (fields : List (String × Value)) → Value.fieldsPlain fields →
    shapeDates Value.isDate shape fields = shapeDates (fun _ => false) shape fields
  | [], _, _ => rfl
  | (key, schema) :: shape, fields, plain => by
    rw [shapeDates, shapeDates, shapeDates_of_plain shape fields plain,
      schema.dates_of_plain _ (Value.field_isPlainOrNone plain key)]

end

section Letters
variable (texts : Texts)

def Event.accepted (event : Event) : Bool := (validateEvent texts event.name event.payload).isOk

variable {texts}

/-- Every schema of the registry is one of objects. -/
theorem object_of_registered {name : String} {schema : Schema}
    (found : EVENT_SCHEMAS.lookup name = some schema) : ∃ shape, schema = .object shape := by
  obtain ⟨before, after, split, -⟩ := List.lookup_eq_some_iff.mp found
  have member : (name, schema) ∈ EVENT_SCHEMAS := by
    rw [split]
    exact List.mem_append_right _ List.mem_cons_self
  have all : EVENT_SCHEMAS.all (fun entry => entry.2 matches .object _) := by rfl
  have this := List.all_eq_true.mp all _ member
  cases schema with
  | object shape => exact ⟨shape, rfl⟩
  | _ => cases this

theorem obj_of_accepted {event : Event} (accepted : event.accepted texts) :
    ∃ fields, event.payload = .obj fields := by
  rw [Event.accepted, validateEvent] at accepted
  cases found : EVENT_SCHEMAS.lookup event.name with
  | none =>
    rw [found] at accepted
    cases accepted
  | some schema =>
    obtain ⟨shape, rfl⟩ := object_of_registered found
    rw [found] at accepted
    cases payload : event.payload with
    | obj fields => exact ⟨fields, rfl⟩
    | _ =>
      rw [payload] at accepted
      cases accepted

/-- A letter is the event that was parked, its dates dates, exactly if that event is plain and
has no dates. -/
theorem DLQEvent.letter_iff {event : DLQEvent} (accepted : (event.letter texts).accepted texts) :
    event.letter texts = event.event ∧ (event.letter texts).givesDates ↔
      event.payload.isPlain ∧ event.event.dateless := by
  have kept : event.letter texts = event.event ↔ event.payload.isPlain := by
    have payload : event.letter texts = event.event ↔
        event.payload.throughJson texts.toISOString = event.payload := by
      simp only [letter, DLQEvent.event, Event.mk.injEq, true_and]
    rw [payload, Value.throughJson_eq_self_iff]
    refine or_iff_left fun absent => ?_
    obtain ⟨fields, never⟩ := obj_of_accepted accepted
    simp only [letter, absent, Value.throughJson, Value.toJson, Option.elim] at never
    cases never
  rw [kept]
  refine and_congr_right fun plain => ?_
  rw [kept.mpr plain]
  have same : event.event.givesDates = event.event.dateless := by
    rw [Event.givesDates, Event.dateless]
    cases EVENT_SCHEMAS.lookup event.event.name with
    | none => rfl
    | some schema => exact schema.dates_of_plain _ (Or.inl plain)
  rw [same]

end Letters
end Events
