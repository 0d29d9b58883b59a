import Hakawi.Waf.Evaluation

/-!
# Padded requests

Below the bound on their number every piece of a request is inspected, so that what a
rule finds in a piece it finds in every request that has the piece. Above the bound
the last pieces are not inspected, and the text of an array or an object changes with
every entry added to it.
-/

namespace Waf
open Html

/-! ### The pieces of a request -/

def fieldPieces (nameOf : Units → Units) (fields : List (Units × Field)) : List Units :=
  fields.flatMap fun field => nameOf field.1 :: field.2.strings.map clampString

mutual
/-- What `collectBodyStrings` finds where nothing stops it. -/
def bodyPieces (value : Value) (depth : Nat) : List Units :=
  match value with
  | .string text => if depth > MAX_BODY_DEPTH then [] else [clampString text]
  | .array entries =>
    if depth > MAX_BODY_DEPTH then []
    else (if entries.isEmpty then [] else [clampString (stringify (.array entries))]) ++
      entryPieces entries (depth + 1)
  | .object fields =>
    if depth > MAX_BODY_DEPTH then []
    else (if fields.isEmpty then [] else [clampString (stringify (.object fields))]) ++
      objectPieces fields (depth + 1)
  | _ => []

def entryPieces (entries : List Value) (depth : Nat) : List Units :=
  match entries with
  | [] => []
  | entry :: rest => bodyPieces entry depth ++ entryPieces rest depth

def objectPieces (fields : List (Units × Value)) (depth : Nat) : List Units :=
  match fields with
  | [] => []
  | (key, entry) :: rest => clampString key :: bodyPieces entry depth ++ objectPieces rest depth
end

mutual
/-- The strings and the field names among them. -/
def plainPieces (value : Value) (depth : Nat) : List Units :=
  match value with
  | .string text => if depth > MAX_BODY_DEPTH then [] else [clampString text]
  | .array entries => if depth > MAX_BODY_DEPTH then [] else plainEntries entries (depth + 1)
  | .object fields => if depth > MAX_BODY_DEPTH then [] else plainFields fields (depth + 1)
  | _ => []

def plainEntries (entries : List Value) (depth : Nat) : List Units :=
  match entries with
  | [] => []
  | entry :: rest => plainPieces entry depth ++ plainEntries rest depth

def plainFields (fields : List (Units × Value)) (depth : Nat) : List Units :=
  match fields with
  | [] => []
  | (key, entry) :: rest => clampString key :: plainPieces entry depth ++ plainFields rest depth
end

def queryPieces (request : Request) : List Units :=
  (request.query.map (fieldPieces clampString)).getD []

def headerPieces (request : Request) : List Units := fieldPieces lowerCase request.headers

def allBodyPieces (request : Request) : List Units :=
  (request.body.map (bodyPieces · 0)).getD []

/-- Everything there is to inspect, empty strings included. -/
def pieceCount (request : Request) : Nat :=
  (urlValuesOf request).length + (queryPieces request).length + (headerPieces request).length +
    (allBodyPieces request).length

/-- The pieces that another request can have as well, by where they are inspected. -/
def sharedPieces (request : Request) : List (WafTarget × Units) :=
  (urlValuesOf request).map (.url, ·) ++ (queryPieces request).map (.query, ·) ++
    (headerPieces request).map (.header, ·) ++
    ((request.body.map (plainPieces · 0)).getD []).map (.body, ·)

/-! ### Below the bound -/

/-- Where there is no room left, there is nothing left to add. -/
theorem append_of_full {sink pieces : List Units}
    (few : sink.length + pieces.length ≤ MAX_INSPECTED_VALUES)
    (full : sink.length ≥ MAX_INSPECTED_VALUES) : sink ++ pieces = sink := by
  have none : pieces = [] := List.length_eq_zero_iff.mp (by omega)
  rw [none, List.append_nil]

theorem fieldValues_eq (nameOf : Units → Units) {fields : List (Units × Field)}
    {values : List Units}
    (few : values.length + (fieldPieces nameOf fields).length ≤ MAX_INSPECTED_VALUES) :
    fieldValues nameOf fields values = values ++ fieldPieces nameOf fields := by
  induction fields generalizing values with
  | nil => simp [fieldValues, fieldPieces]
  | cons field rest ih =>
    obtain ⟨name, field⟩ := field
    have split : fieldPieces nameOf ((name, field) :: rest) =
        (nameOf name :: field.strings.map clampString) ++ fieldPieces nameOf rest := by
      simp [fieldPieces]
    rw [split, List.length_append] at few
    rw [split, fieldValues, ← List.append_assoc]
    split
    · exact (append_of_full (by rw [List.length_append]; omega) ‹_›).symm
    · apply ih
      rw [List.length_append]
      omega

mutual
theorem collectBodyStrings_eq (value : Value) (depth : Nat) (sink : List Units)
    (few : sink.length + (bodyPieces value depth).length ≤ MAX_INSPECTED_VALUES) :
    collectBodyStrings value depth sink = sink ++ bodyPieces value depth := by
  cases value with
  | null | bool | number => simp [collectBodyStrings, bodyPieces]
  | string text =>
    rw [bodyPieces] at few ⊢
    rw [collectBodyStrings]
    by_cases deep : depth > MAX_BODY_DEPTH
    · simp [deep]
    · simp only [deep, if_false, List.length_singleton, or_false] at few ⊢
      rw [if_neg (by omega)]
  | array entries =>
    rw [bodyPieces] at few ⊢
    rw [collectBodyStrings]
    by_cases deep : depth > MAX_BODY_DEPTH
    · simp [deep]
    · simp only [deep, if_false, or_false] at few ⊢
      split
      · exact (append_of_full few ‹_›).symm
      · rw [List.length_append] at few
        rw [collectEntries_eq entries (depth + 1) _ (by split <;> simp_all; omega)]
        split <;> simp
  | object fields =>
    rw [bodyPieces] at few ⊢
    rw [collectBodyStrings]
    by_cases deep : depth > MAX_BODY_DEPTH
    · simp [deep]
    · simp only [deep, if_false, or_false] at few ⊢
      split
      · exact (append_of_full few ‹_›).symm
      · rw [List.length_append] at few
        rw [collectFields_eq fields (depth + 1) _ (by split <;> simp_all; omega)]
        split <;> simp

theorem collectEntries_eq (entries : List Value) (depth : Nat) (sink : List Units)
    (few : sink.length + (entryPieces entries depth).length ≤ MAX_INSPECTED_VALUES) :
    collectEntries entries depth sink = sink ++ entryPieces entries depth := by
  cases entries with
  | nil => simp [collectEntries, entryPieces]
  | cons entry rest =>
    rw [entryPieces, List.length_append] at few
    rw [entryPieces, collectEntries, collectBodyStrings_eq entry depth sink (by omega),
      ← List.append_assoc]
    split
    · exact (append_of_full (by rw [List.length_append]; omega) ‹_›).symm
    · exact collectEntries_eq rest depth _ (by rw [List.length_append]; omega)

theorem collectFields_eq (fields : List (Units × Value)) (depth : Nat) (sink : List Units)
    (few : sink.length + (objectPieces fields depth).length ≤ MAX_INSPECTED_VALUES) :
    collectFields fields depth sink = sink ++ objectPieces fields depth := by
  cases fields with
  | nil => simp [collectFields, objectPieces]
  | cons field rest =>
    obtain ⟨key, entry⟩ := field
    rw [objectPieces, List.length_append, List.length_cons] at few
    have here : collectBodyStrings entry depth (sink ++ [clampString key]) =
        sink ++ clampString key :: bodyPieces entry depth := by
      rw [collectBodyStrings_eq entry depth _ (by
        rw [List.length_append, List.length_singleton]; omega), List.append_assoc,
        List.singleton_append]
    rw [objectPieces, collectFields, here, ← List.append_assoc]
    split
    · exact (append_of_full (by rw [List.length_append, List.length_cons]; omega) ‹_›).symm
    · exact collectFields_eq rest depth _ (by rw [List.length_append, List.length_cons]; omega)
end

/-- The values that some pieces are inspected as, all of them. -/
def inspected (target : WafTarget) (raws : List Units) : List InspectableValue :=
  (raws.filter fun raw => decodeForInspection raw ≠ []).map fun raw =>
    ⟨target, decodeForInspection raw⟩

theorem inspected_length_le (target : WafTarget) (raws : List Units) :
    (inspected target raws).length ≤ raws.length := by
  rw [inspected, List.length_map]
  exact List.length_filter_le _ _

theorem mem_inspected {target : WafTarget} {raws : List Units} {raw : Units} (member : raw ∈ raws)
    (nonempty : decodeForInspection raw ≠ []) :
    ⟨target, decodeForInspection raw⟩ ∈ inspected target raws := by
  refine List.mem_map.mpr ⟨raw, List.mem_filter.mpr ⟨member, ?_⟩, rfl⟩
  exact decide_eq_true nonempty

theorem foldl_push (target : WafTarget) {raws : List Units} {values : List InspectableValue}
    (few : values.length + raws.length ≤ MAX_INSPECTED_VALUES) :
    raws.foldl (push target) values = values ++ inspected target raws := by
  induction raws generalizing values with
  | nil => simp [inspected]
  | cons raw rest ih =>
    rw [List.length_cons] at few
    rw [List.foldl_cons, push, if_neg (by omega), inspected]
    split
    · rename_i empty
      rw [ih (by omega), List.filter_cons_of_neg (by simp [empty]), inspected]
    · rename_i some
      rw [ih (by rw [List.length_append, List.length_singleton]; omega), inspected,
        List.filter_cons_of_pos (by simp [some]), List.map_cons, List.append_assoc,
        List.singleton_append]

section Request
variable {request : Request}

theorem queryValuesOf_eq (few : (queryPieces request).length ≤ MAX_INSPECTED_VALUES) :
    queryValuesOf request = queryPieces request := by
  rw [queryValuesOf]
  rw [queryPieces] at few ⊢
  cases query : request.query with
  | none => rfl
  | some fields =>
    rw [query] at few
    exact fieldValues_eq clampString (by simpa using few)

theorem bodyStringsOf_eq (few : (allBodyPieces request).length ≤ MAX_INSPECTED_VALUES) :
    bodyStringsOf request = allBodyPieces request := by
  rw [bodyStringsOf]
  rw [allBodyPieces] at few ⊢
  cases body : request.body with
  | none => rfl
  | some value =>
    rw [body] at few
    exact collectBodyStrings_eq value 0 [] (by simpa using few)

theorem collectInspectableValues_eq (few : pieceCount request ≤ MAX_INSPECTED_VALUES) :
    collectInspectableValues request = inspected .url (urlValuesOf request) ++
      inspected .query (queryPieces request) ++ inspected .header (headerPieces request) ++
      inspected .body (allBodyPieces request) := by
  have url := inspected_length_le .url (urlValuesOf request)
  have query := inspected_length_le .query (queryPieces request)
  have header := inspected_length_le .header (headerPieces request)
  simp only [pieceCount] at few
  have fewHeaders : (headerPieces request).length ≤ MAX_INSPECTED_VALUES := by omega
  have headers : headerValuesOf request = headerPieces request :=
    fieldValues_eq lowerCase (by rwa [List.length_nil, Nat.zero_add])
  simp only [collectInspectableValues]
  rw [queryValuesOf_eq (by omega), bodyStringsOf_eq (by omega), headers,
    foldl_push .url (by rw [List.length_nil]; omega), List.nil_append,
    foldl_push .query (by omega), foldl_push .header (by rw [List.length_append]; omega),
    foldl_push .body (by rw [List.length_append, List.length_append]; omega)]

end Request

/-! ### Requests that contain another -/

mutual
/-- Every string and every field of a body is in its place in another, which may have more. -/
def Within : Value → Value → Prop
  | .string text, other => other = .string text
  | .array entries, other => ∃ others, other = .array others ∧ EntriesWithin entries others
  | .object fields, other => ∃ others, other = .object others ∧ FieldsWithin fields others
  | _, _ => True

def EntriesWithin : List Value → List Value → Prop
  | [], _ => True
  | entry :: rest, others => (∃ other ∈ others, Within entry other) ∧ EntriesWithin rest others

def FieldsWithin : List (Units × Value) → List (Units × Value) → Prop
  | [], _ => True
  | (key, entry) :: rest, others =>
    (∃ other, (key, other) ∈ others ∧ Within entry other) ∧ FieldsWithin rest others
end

theorem objectPieces_mem {fields : List (Units × Value)} (depth : Nat) {key : Units}
    {entry : Value} (member : (key, entry) ∈ fields) :
    clampString key ∈ objectPieces fields depth ∧
      ∀ piece ∈ bodyPieces entry depth, piece ∈ objectPieces fields depth := by
  induction fields with
  | nil => cases member
  | cons field rest ih =>
    obtain ⟨key', entry'⟩ := field
    rw [objectPieces]
    rcases List.mem_cons.mp member with same | later
    · cases same
      exact ⟨List.mem_append_left _ List.mem_cons_self,
        fun piece found => List.mem_append_left _ (List.mem_cons_of_mem _ found)⟩
    · obtain ⟨named, found⟩ := ih later
      exact ⟨List.mem_append_right _ named,
        fun piece member => List.mem_append_right _ (found piece member)⟩

theorem entryPieces_mem {entries : List Value} {depth : Nat} {entry : Value}
    (member : entry ∈ entries) :
    ∀ piece ∈ bodyPieces entry depth, piece ∈ entryPieces entries depth := by
  intro piece found
  induction entries with
  | nil => cases member
  | cons first rest ih =>
    rw [entryPieces]
    rcases List.mem_cons.mp member with rfl | later
    · exact List.mem_append_left _ found
    · exact List.mem_append_right _ (ih later)

mutual
/-- The strings and field names of a body are pieces of every body that contains it. -/
theorem plainPieces_within {value other : Value} (within : Within value other) (depth : Nat) :
    ∀ piece ∈ plainPieces value depth, piece ∈ bodyPieces other depth := by
  intro piece member
  cases value with
  | null | bool | number => simp [plainPieces] at member
  | string text =>
    rw [Within] at within
    subst within
    rwa [plainPieces] at member
  | array entries =>
    rw [Within] at within
    obtain ⟨others, rfl, within⟩ := within
    rw [plainPieces] at member
    rw [bodyPieces]
    split
    · rename_i deep
      rw [if_pos deep] at member
      exact member
    · rename_i shallow
      rw [if_neg shallow] at member
      exact List.mem_append_right _ (plainEntries_within within (depth + 1) piece member)
  | object fields =>
    rw [Within] at within
    obtain ⟨others, rfl, within⟩ := within
    rw [plainPieces] at member
    rw [bodyPieces]
    split
    · rename_i deep
      rw [if_pos deep] at member
      exact member
    · rename_i shallow
      rw [if_neg shallow] at member
      exact List.mem_append_right _ (plainFields_within within (depth + 1) piece member)

theorem plainEntries_within {entries others : List Value} (within : EntriesWithin entries others)
    (depth : Nat) : ∀ piece ∈ plainEntries entries depth, piece ∈ entryPieces others depth := by
  intro piece member
  cases entries with
  | nil => simp [plainEntries] at member
  | cons entry rest =>
    rw [EntriesWithin] at within
    rw [plainEntries] at member
    obtain ⟨⟨other, among, first⟩, later⟩ := within
    rcases List.mem_append.mp member with here | there
    · exact entryPieces_mem among piece (plainPieces_within first depth piece here)
    · exact plainEntries_within later depth piece there

theorem plainFields_within {fields others : List (Units × Value)}
    (within : FieldsWithin fields others) (depth : Nat) :
    ∀ piece ∈ plainFields fields depth, piece ∈ objectPieces others depth := by
  intro piece member
  cases fields with
  | nil => simp [plainFields] at member
  | cons field rest =>
    obtain ⟨key, entry⟩ := field
    rw [FieldsWithin] at within
    rw [plainFields] at member
    obtain ⟨⟨other, among, first⟩, later⟩ := within
    obtain ⟨named, found⟩ := objectPieces_mem depth among
    rcases List.mem_append.mp member with here | there
    · rcases List.mem_cons.mp here with rfl | inside
      · exact named
      · exact found piece (plainPieces_within first depth piece inside)
    · exact plainFields_within later depth piece there
end

/-- Every field of a list of fields is in another, with all its strings. -/
def FieldsAmong (fields others : List (Units × Field)) : Prop :=
  ∀ name field, (name, field) ∈ fields →
    ∃ wider, (name, wider) ∈ others ∧ field.strings ⊆ wider.strings

theorem fieldPieces_among {fields others : List (Units × Field)} (nameOf : Units → Units)
    (among : FieldsAmong fields others) :
    fieldPieces nameOf fields ⊆ fieldPieces nameOf others := by
  intro piece member
  obtain ⟨⟨name, field⟩, inside, found⟩ := List.mem_flatMap.mp member
  obtain ⟨wider, has, strings⟩ := among name field inside
  refine List.mem_flatMap.mpr ⟨(name, wider), has, ?_⟩
  rcases List.mem_cons.mp found with rfl | value
  · exact List.mem_cons_self
  · obtain ⟨text, given, rfl⟩ := List.mem_map.mp value
    exact List.mem_cons_of_mem _ (List.mem_map_of_mem (strings given))

/-- The second request has all query parameters, headers and body strings of the first,
and perhaps more; method, address and size give the first no advantage. -/
structure Pads (waf : WafMiddleware) (first second : Request) : Prop where
  method : second.method = first.method
  address : waf.ipOf second = waf.ipOf first
  bytes : observedBytes first ≤ observedBytes second
  query : FieldsAmong (first.query.getD []) (second.query.getD [])
  headers : FieldsAmong first.headers second.headers
  body : ∀ value, first.body = some value →
    ∃ other, second.body = some other ∧ Within value other

section Pads
variable {waf : WafMiddleware} {first second : Request}

theorem Pads.nonPattern (pads : Pads waf first second) {rule : WafRule}
    (violates : (waf.nonPatternViolation first rule).isSome) :
    (waf.nonPatternViolation second rule).isSome := by
  have geo : waf.geoViolation second rule = waf.geoViolation first rule := by
    simp only [WafMiddleware.geoViolation, pads.address]
  have bytes := pads.bytes
  simp only [WafMiddleware.nonPatternViolation, pads.method, geo] at violates ⊢
  cases active : waf.config.isRuleActive rule with
  | false => simp [active] at violates
  | true =>
    cases kind : rule.kind with
    | maxBytes maxBytes =>
      simp only [active, kind, Bool.not_true, Bool.false_eq_true, if_false] at violates ⊢
      split at violates
      · rename_i isGeo
        rwa [if_pos isGeo]
      · rename_i notGeo
        rw [if_neg notGeo]
        generalize (if rule.id = "body-size-limit" then waf.config.maxRequestSizeBytes
          else maxBytes) = bound at violates ⊢
        by_cases beyond : observedBytes first > bound
        · rw [if_pos (by omega)]
          rfl
        · rw [if_neg beyond] at violates
          cases violates
    | pattern | controlChar | allowedMethods => simpa [active, kind] using violates

theorem ruleId_of_nonPattern {rule : WafRule} {request : Request} {violation : WafViolation}
    (found : waf.nonPatternViolation request rule = some violation) :
    violation.ruleId = rule.id := by
  simp only [WafMiddleware.nonPatternViolation, WafMiddleware.geoViolation] at found
  repeat' split at found
  all_goals first | (cases found; done) | (obtain rfl := Option.some.inj found; rfl)

theorem queryPieces_eq (request : Request) :
    queryPieces request = fieldPieces clampString (request.query.getD []) := by
  rw [queryPieces]
  cases request.query <;> rfl

/-- A piece of the first request is inspected in the second, if all of that is. -/
theorem Pads.inspected (pads : Pads waf first second)
    (few : pieceCount second ≤ MAX_INSPECTED_VALUES) {piece : WafTarget × Units}
    (shared : piece ∈ sharedPieces first)
    (url : piece.1 = .url → urlValuesOf second = urlValuesOf first)
    (nonempty : decodeForInspection piece.2 ≠ []) :
    ⟨piece.1, decodeForInspection piece.2⟩ ∈ collectInspectableValues second := by
  rw [collectInspectableValues_eq few]
  simp only [List.mem_append]
  simp only [sharedPieces, List.mem_append] at shared
  rcases shared with ((inUrl | inQuery) | inHeader) | inBody
  · obtain ⟨raw, member, rfl⟩ := List.mem_map.mp inUrl
    rw [← url rfl] at member
    exact Or.inl (Or.inl (Or.inl (mem_inspected member nonempty)))
  · obtain ⟨raw, member, rfl⟩ := List.mem_map.mp inQuery
    rw [queryPieces_eq] at member
    have also := fieldPieces_among clampString pads.query member
    rw [← queryPieces_eq] at also
    exact Or.inl (Or.inl (Or.inr (mem_inspected also nonempty)))
  · obtain ⟨raw, member, rfl⟩ := List.mem_map.mp inHeader
    exact Or.inl (Or.inr (mem_inspected (fieldPieces_among lowerCase pads.headers member) nonempty))
  · obtain ⟨raw, member, rfl⟩ := List.mem_map.mp inBody
    cases body : first.body with
    | none => simp [body] at member
    | some value =>
      rw [body] at member
      obtain ⟨other, has, within⟩ := pads.body value body
      have also : raw ∈ allBodyPieces second := by
        rw [allBodyPieces, has]
        exact plainPieces_within within 0 raw member
      exact Or.inr (mem_inspected also nonempty)

end Pads

/-- Padding that stays below the bound hides nothing that a rule finds in a query
parameter, a header, a string or field name of the body or an unchanged URL, nor a
method, a size or a country. -/
theorem padding_hides_nothing (waf : WafMiddleware) (first second : Request)
    (pads : Pads waf first second) (few : pieceCount second ≤ MAX_INSPECTED_VALUES)
    (rule : WafRule) (listed : rule ∈ waf.WAF_RULES)
    (detected : (waf.nonPatternViolation first rule).isSome ∨
      (waf.config.isRuleActive rule ∧ ∃ piece ∈ sharedPieces first,
        (piece.1 = .url → urlValuesOf second = urlValuesOf first) ∧
        decodeForInspection piece.2 ≠ [] ∧
        WafMiddleware.matchesCandidate rule ⟨piece.1, decodeForInspection piece.2⟩)) :
    ∃ violation ∈ waf.evaluate second, violation.ruleId = rule.id := by
  rcases detected with nonPattern | ⟨active, piece, shared, url, nonempty, fires⟩
  · obtain ⟨violation, found⟩ := Option.isSome_iff_exists.mp (pads.nonPattern nonPattern)
    exact ⟨violation, List.mem_append_left _ (List.mem_filterMap.mpr ⟨rule, listed, found⟩),
      ruleId_of_nonPattern found⟩
  · have inspected := pads.inspected few shared url nonempty
    obtain ⟨candidate, found⟩ := Option.isSome_iff_exists.mp
      (List.find?_isSome.mpr ⟨_, inspected, fires⟩)
    refine ⟨rule.violation candidate.target (candidate.value.take 120),
      List.mem_append_right _ (List.mem_filterMap.mpr ⟨rule, listed, ?_⟩), rfl⟩
    rw [WafMiddleware.patternViolation, active, found]
    rfl

/-- A null byte in a parameter, and beside it a parameter more. -/
theorem padding_hides_nothing_null_byte :
    ∃ violation ∈ defaultWaf.evaluate (getRequest "203.0.113.9" "/"
        [(units "page", .one (units "2")), (units "file", .one (units "a%00"))]),
      violation.ruleId = "traversal-null-byte" :=
  padding_hides_nothing defaultWaf
    (getRequest "203.0.113.9" "/" [(units "file", .one (units "a%00"))])
    (getRequest "203.0.113.9" "/"
      [(units "page", .one (units "2")), (units "file", .one (units "a%00"))])
    { method := rfl
      address := rfl
      bytes := Nat.le_refl 0
      query := fun _ field member => ⟨field, List.mem_cons_of_mem _ member, fun _ found => found⟩
      headers := fun _ _ member => nomatch member
      body := fun _ some => nomatch some }
    (by decide) traversalNullByte (by simp [defaultWaf])
    (Or.inr ⟨rfl, (.query, units "a%00"), by decide, by decide, by decide, by decide⟩)

/-- A hundred empty headers before it push a line break out of the values that are
inspected, and an entry between two others breaks the text of their array. -/
theorem padding_hides :
    let pad : List (Units × Field) :=
      (List.range 10).flatMap fun i => (List.range 10).map fun j =>
        ([97 + i.toUInt16, 97 + j.toUInt16], .one [])
    let payload : List (Units × Field) := [(units "x-title", .one (units "a%0d%0ab"))]
    let headed (headers : List (Units × Field)) : Request :=
      { getRequest "203.0.113.9" "/stories" [] with headers := headers }
    let bodied (entries : List String) : Request :=
      { getRequest "203.0.113.9" "/stories" [] with
        method := some "POST"
        body := some (.array (entries.map fun entry => .string (units entry))) }
    ((defaultWaf.evaluate (headed payload)).map fun violation =>
        violation.ruleId) = ["header-crlf-injection"] ∧
      defaultWaf.evaluate (headed (pad ++ payload)) = [] ∧
    ((defaultWaf.evaluate (bodied ["data:", "html"])).map fun violation =>
        violation.ruleId) = ["xss-data-uri"] ∧
      defaultWaf.evaluate (bodied ["data:", " ", "html"]) = [] := by
  decide +kernel

end Waf
