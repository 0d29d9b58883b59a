import Hakawi.Caching.CacheDecorator
import Hakawi.Text.Segments

/-!
# Requests that share a key

The route, the user and the key parameters can be read back from a key, and so can a
query whose names and values are free of the three characters that separate them
without being escaped: the equals sign, the ampersand and the comma.
-/

namespace Caching
open Html Segments

/-- Two requests ask for the same thing. -/
structure SameDimensions (options : ResolvedCacheOptions) (first second : CacheKeyContext) :
    Prop where
  route : first.route = second.route
  userId : first.userId = second.userId
  keyParams : options.keyParamValues first = options.keyParamValues second
  query : (first.query.getD []).Perm (second.query.getD [])

/-- The units of the query are allowed, its names are distinct and not empty, and each
has a value; route and user id have no colon. -/
structure Over (allowed : UInt16 → Prop) (context : CacheKeyContext) : Prop where
  route : COLON ∉ context.route
  userId : ∀ userId, context.userId = some userId → COLON ∉ userId
  distinct : ((context.query.getD []).map Prod.fst).Nodup
  names : ∀ entry ∈ context.query.getD [], entry.1 ≠ [] ∧ ∀ u ∈ entry.1, allowed u
  values : ∀ entry ∈ context.query.getD [], entry.2 ≠ [] ∧ ∀ value ∈ entry.2, ∀ u ∈ value, allowed u

theorem escapeSegment_eq (value : Units) :
    escapeSegment value = escape BACKSLASH COLON value := by
  rw [escapeSegment, replaceAll, replaceAll, List.flatMap_assoc, escape]
  refine List.flatMap_congr fun u _ => ?_
  by_cases isBackslash : u = BACKSLASH
  · subst isBackslash
    decide
  · by_cases isColon : u = COLON
    · subst isColon
      decide
    · simp [isBackslash, isColon]

/-! ### The segments -/

/-- The key after the user: the parameters and the query, each after a colon. -/
def tail (params query : List Units) : Units :=
  (if params.length > 0 then
    COLON :: (units "p:" ++ [COLON].intercalate (params.map escapeSegment)) else []) ++
  (if query.length > 0 then COLON :: (units "q:" ++ [AMPERSAND].intercalate query) else [])

variable {options : ResolvedCacheOptions} {first second : CacheKeyContext}

theorem intercalate_segments (options : ResolvedCacheOptions) (context : CacheKeyContext) :
    [COLON].intercalate (options.segments context) = context.route ++ COLON ::
      (ResolvedCacheOptions.userScope context ++
        tail (options.keyParamValues context) (canonicalQuery context.query)) := by
  simp only [ResolvedCacheOptions.segments, tail]
  split <;> split <;> simp [List.intercalate_cons_cons]

theorem stops_tail (params query : List Units) : Stops COLON (tail params query) := by
  rw [tail]
  split
  · exact .cons _ _
  · split
    · exact .cons _ _
    · trivial

theorem stops_query (query : List Units) : Stops COLON
    (if query.length > 0 then COLON :: (units "q:" ++ [AMPERSAND].intercalate query) else []) := by
  split
  · exact .cons _ _
  · trivial

/-- A user id without a colon is read back from what follows the route. -/
theorem userScope_inj {tail₁ tail₂ : Units}
    (colonFree : ∀ userId, first.userId = some userId → COLON ∉ userId)
    (colonFree' : ∀ userId, second.userId = some userId → COLON ∉ userId)
    (stops : Stops COLON tail₁) (stops' : Stops COLON tail₂)
    (same : ResolvedCacheOptions.userScope first ++ tail₁ =
      ResolvedCacheOptions.userScope second ++ tail₂) :
    first.userId = second.userId ∧ tail₁ = tail₂ := by
  rw [ResolvedCacheOptions.userScope, ResolvedCacheOptions.userScope] at same
  cases anon : first.userId with
  | none =>
    cases anon' : second.userId with
    | none =>
      rw [anon, anon'] at same
      exact ⟨rfl, List.append_cancel_left same⟩
    | some userId =>
      rw [anon, anon'] at same
      exact absurd (List.cons.inj same).1 (by decide)
  | some userId =>
    cases anon' : second.userId with
    | none =>
      rw [anon, anon'] at same
      exact absurd (List.cons.inj same).1 (by decide)
    | some userId' =>
      rw [anon, anon'] at same
      simp only [List.append_assoc] at same
      obtain ⟨ids, tails⟩ := append_inj_of_not_mem (colonFree userId anon)
        (colonFree' userId' anon') stops stops' (List.append_cancel_left same)
      exact ⟨congrArg some ids, tails⟩

theorem query_inj {query query' : List Units}
    (same : (if query.length > 0 then
        COLON :: (units "q:" ++ [AMPERSAND].intercalate query) else []) =
      if query'.length > 0 then
        COLON :: (units "q:" ++ [AMPERSAND].intercalate query') else []) :
    query = query' ∨ (query ≠ [] ∧ query' ≠ [] ∧
      [AMPERSAND].intercalate query = [AMPERSAND].intercalate query') := by
  split at same
  · rename_i some
    split at same
    · rename_i some'
      exact Or.inr ⟨List.length_pos_iff.mp some, List.length_pos_iff.mp some',
        List.append_cancel_left (List.cons.inj same).2⟩
    · cases same
  · rename_i none
    split at same
    · cases same
    · rename_i none'
      left
      rw [List.length_eq_zero_iff.mp (by omega : query.length = 0),
        List.length_eq_zero_iff.mp (by omega : query'.length = 0)]

/-- Parameters of one number are read back, and the query after them. -/
theorem tail_inj {params params' query query' : List Units}
    (length : params.length = params'.length) (same : tail params query = tail params' query') :
    params = params' ∧
      (query = query' ∨ (query ≠ [] ∧ query' ≠ [] ∧
        [AMPERSAND].intercalate query = [AMPERSAND].intercalate query')) := by
  have escapes : escapeSegment = escape BACKSLASH COLON := funext escapeSegment_eq
  rw [tail, tail, length] at same
  by_cases some : params'.length > 0
  · simp only [some, if_true, List.cons_append, List.append_assoc] at same
    rw [escapes] at same
    obtain ⟨sameParams, sameQuery⟩ := join_escape_append_inj (by decide) length
      (stops_query query) (stops_query query')
      (List.append_cancel_left (List.cons.inj same).2)
    exact ⟨sameParams, query_inj sameQuery⟩
  · simp only [some, if_false, List.nil_append] at same
    rw [List.length_eq_zero_iff.mp (by omega : params.length = 0),
      List.length_eq_zero_iff.mp (by omega : params'.length = 0)]
    exact ⟨rfl, query_inj same⟩

/-! ### The query -/

def render (entry : Units × List Units) : Units :=
  escapeSegment entry.1 ++ [EQUALS] ++ escapeSegment (queryValueToString entry.2)

theorem mem_intercalate {α : Type} {separator a : α} {segments : List (List α)}
    (member : a ∈ [separator].intercalate segments) :
    a = separator ∨ ∃ segment ∈ segments, a ∈ segment := by
  induction segments with
  | nil => cases member
  | cons first rest ih =>
    cases rest with
    | nil =>
      rw [List.intercalate_singleton] at member
      exact Or.inr ⟨first, List.mem_cons_self, member⟩
    | cons next rest =>
      rw [List.intercalate_cons_cons, List.append_assoc, List.mem_append, List.mem_append] at member
      rcases member with here | isSeparator | later
      · exact Or.inr ⟨first, List.mem_cons_self, here⟩
      · exact Or.inl (List.mem_singleton.mp isSeparator)
      · rcases ih later with isSeparator | ⟨segment, among, inside⟩
        · exact Or.inl isSeparator
        · exact Or.inr ⟨segment, List.mem_cons_of_mem _ among, inside⟩

section Query
variable {allowed : UInt16 → Prop} {entry entry' : Units × List Units}

/-- A name and its values are made of allowed units. -/
def EntryOver (allowed : UInt16 → Prop) (entry : Units × List Units) : Prop :=
  (entry.1 ≠ [] ∧ ∀ u ∈ entry.1, allowed u) ∧
    entry.2 ≠ [] ∧ ∀ value ∈ entry.2, ∀ u ∈ value, allowed u

theorem not_mem_escapeSegment {u : UInt16} {value : Units} (different : u ≠ BACKSLASH)
    (absent : u ∉ value) : u ∉ escapeSegment value := by
  intro member
  rw [escapeSegment_eq] at member
  rcases mem_escape member with inside | isMark
  · exact absent inside
  · exact different isMark

theorem escapeSegment_inj {value value' : Units} (same : escapeSegment value = escapeSegment value') :
    value = value' := by
  rw [escapeSegment_eq, escapeSegment_eq] at same
  have same' : escape BACKSLASH COLON value ++ [] = escape BACKSLASH COLON value' ++ [] := by
    rw [List.append_nil, List.append_nil, same]
  have stops : Stops COLON ([] : Units) := trivial
  exact (escape_append_inj (by decide) stops stops same').1

theorem ampersand_not_mem_render (spelled : EntryOver allowed entry) (ampersand : ¬ allowed AMPERSAND) :
    AMPERSAND ∉ render entry := by
  obtain ⟨⟨-, name⟩, -, values⟩ := spelled
  simp only [render, List.mem_append, not_or]
  refine ⟨⟨?_, by decide⟩, ?_⟩
  · exact not_mem_escapeSegment (by decide) fun inside => ampersand (name _ inside)
  · refine not_mem_escapeSegment (by decide) fun inside => ?_
    rcases mem_intercalate inside with isComma | ⟨value, among, within⟩
    · exact absurd isComma (by decide)
    · exact ampersand (values value among _ within)

theorem render_inj (spelled : EntryOver allowed entry) (spelled' : EntryOver allowed entry')
    (equals : ¬ allowed EQUALS) (comma : ¬ allowed COMMA) (same : render entry = render entry') :
    entry = entry' := by
  obtain ⟨⟨-, name⟩, nonempty, values⟩ := spelled
  obtain ⟨⟨-, name'⟩, nonempty', values'⟩ := spelled'
  simp only [render, List.append_assoc] at same
  obtain ⟨names, rest⟩ := append_inj_of_not_mem
    (not_mem_escapeSegment (by decide) fun inside => equals (name _ inside))
    (not_mem_escapeSegment (by decide) fun inside => equals (name' _ inside))
    (.cons EQUALS _) (.cons EQUALS _) same
  have joined := escapeSegment_inj (List.cons.inj rest).2
  refine Prod.ext (escapeSegment_inj names) ?_
  exact join_injective (fun value among inside => comma (values value among _ inside))
    (fun value among inside => comma (values' value among _ inside)) nonempty nonempty' joined

theorem map_render_inj {entries entries' : List (Units × List Units)}
    (spelled : ∀ entry ∈ entries, EntryOver allowed entry)
    (spelled' : ∀ entry ∈ entries', EntryOver allowed entry)
    (equals : ¬ allowed EQUALS) (comma : ¬ allowed COMMA)
    (same : entries.map render = entries'.map render) : entries = entries' := by
  induction entries generalizing entries' with
  | nil => exact (List.map_eq_nil_iff.mp same.symm).symm
  | cons entry rest ih =>
    cases entries' with
    | nil => cases same
    | cons entry' rest' =>
      obtain ⟨here, later⟩ := List.cons.inj same
      rw [render_inj (spelled _ List.mem_cons_self) (spelled' _ List.mem_cons_self) equals comma here,
        ih (fun e among => spelled e (List.mem_cons_of_mem _ among))
          (fun e among => spelled' e (List.mem_cons_of_mem _ among)) later]

end Query

/-- Where no name is empty, the canonical query renders the entries in some order. -/
theorem canonicalQuery_eq {query : Option (List (Units × List Units))}
    (named : ∀ entry ∈ query.getD [], entry.1 ≠ []) :
    canonicalQuery query = (sortedByName (query.getD [])).map render := by
  cases query with
  | none => rfl
  | some entries =>
    have all : entries.filter (fun entry => 0 < entry.1.length) = entries :=
      List.filter_eq_self.mpr fun entry among =>
        decide_eq_true (List.length_pos_iff.mpr (named entry among))
    rw [canonicalQuery, all]
    rfl

theorem sortedByName_perm (query : List (Units × List Units)) :
    (sortedByName query).Perm query := List.perm_insertionSort _ _

theorem Over.entry {allowed : UInt16 → Prop} {context : CacheKeyContext}
    (spelled : Over allowed context) :
    ∀ entry ∈ sortedByName (context.query.getD []), EntryOver allowed entry := by
  intro entry among
  have member := (sortedByName_perm _).mem_iff.mp among
  exact ⟨spelled.names entry member, spelled.values entry member⟩

/-- Free of the separators, the query is read back up to the order of its names. -/
theorem query_perm {allowed : UInt16 → Prop} (spelled : Over allowed first)
    (spelled' : Over allowed second) (equals : ¬ allowed EQUALS) (ampersand : ¬ allowed AMPERSAND)
    (comma : ¬ allowed COMMA)
    (same : canonicalQuery first.query = canonicalQuery second.query ∨
      (canonicalQuery first.query ≠ [] ∧ canonicalQuery second.query ≠ [] ∧
        [AMPERSAND].intercalate (canonicalQuery first.query) =
          [AMPERSAND].intercalate (canonicalQuery second.query))) :
    (first.query.getD []).Perm (second.query.getD []) := by
  rw [canonicalQuery_eq fun entry among => (spelled.names entry among).1,
    canonicalQuery_eq fun entry among => (spelled'.names entry among).1] at same
  have rendered : (sortedByName (first.query.getD [])).map render =
      (sortedByName (second.query.getD [])).map render := by
    rcases same with same | ⟨nonempty, nonempty', joined⟩
    · exact same
    · refine join_injective ?_ ?_ nonempty nonempty' joined
      · intro piece among
        obtain ⟨entry, inside, rfl⟩ := List.mem_map.mp among
        exact ampersand_not_mem_render (spelled.entry entry inside) ampersand
      · intro piece among
        obtain ⟨entry, inside, rfl⟩ := List.mem_map.mp among
        exact ampersand_not_mem_render (spelled'.entry entry inside) ampersand
  have sorted := map_render_inj spelled.entry spelled'.entry equals comma rendered
  exact (sortedByName_perm _).symm.trans (sorted ▸ sortedByName_perm _)

theorem sameDimensions_of_key {allowed : UInt16 → Prop} (noKey : options.key = none)
    (spelled : Over allowed first) (spelled' : Over allowed second)
    (equals : ¬ allowed EQUALS) (ampersand : ¬ allowed AMPERSAND) (comma : ¬ allowed COMMA)
    (same : options.buildCacheKey first = options.buildCacheKey second) :
    SameDimensions options first second := by
  simp only [ResolvedCacheOptions.buildCacheKey, noKey, List.append_assoc] at same
  have segments := List.append_cancel_left (List.append_cancel_left (List.append_cancel_left same))
  rw [intercalate_segments, intercalate_segments] at segments
  obtain ⟨route, rest⟩ := append_inj_of_not_mem spelled.route spelled'.route (.cons _ _) (.cons _ _)
    segments
  obtain ⟨userId, tails⟩ := userScope_inj spelled.userId spelled'.userId (stops_tail _ _)
    (stops_tail _ _) (List.cons.inj rest).2
  have length : (options.keyParamValues first).length = (options.keyParamValues second).length := by
    simp [ResolvedCacheOptions.keyParamValues]
  obtain ⟨keyParams, query⟩ := tail_inj length tails
  exact ⟨route, userId, keyParams, query_perm spelled spelled' equals ampersand comma query⟩

/-! ### Collisions -/

/-- An anonymous request of one route with a query. -/
def queried (query : List (Units × List Units)) : CacheKeyContext where
  request := fun _ => none
  query := some query
  params := fun _ => none
  userId := none
  route := units "StoriesController.list"

def plainOptions : ResolvedCacheOptions := ⟨units "stories", [], none⟩

theorem over_queried {allowed : UInt16 → Prop} {query : List (Units × List Units)}
    (distinct : (query.map Prod.fst).Nodup) (entries : ∀ entry ∈ query, EntryOver allowed entry) :
    Over allowed (queried query) where
  route := by change COLON ∉ units "StoriesController.list"; decide
  userId := by rintro userId ⟨⟩
  distinct := distinct
  names := fun entry among => (entries entry among).1
  values := fun entry among => (entries entry among).2

theorem collides_equals : plainOptions.buildCacheKey (queried [([EQUALS], [[EQUALS, EQUALS]])]) =
    plainOptions.buildCacheKey (queried [([EQUALS, EQUALS], [[EQUALS]])]) := by decide

theorem collides_ampersand : plainOptions.buildCacheKey (queried
      [([AMPERSAND], [[AMPERSAND, AMPERSAND, AMPERSAND]]), ([AMPERSAND, AMPERSAND], [[AMPERSAND]])]) =
    plainOptions.buildCacheKey (queried [([AMPERSAND], [[AMPERSAND]]),
      ([AMPERSAND, AMPERSAND, AMPERSAND, AMPERSAND], [[AMPERSAND]])]) := by decide

theorem collides_comma : plainOptions.buildCacheKey (queried [([COMMA], [[COMMA, COMMA, COMMA]])]) =
    plainOptions.buildCacheKey (queried [([COMMA], [[COMMA], [COMMA]])]) := by decide

/-- Over any set of units, keys tell requests apart exactly when none of the three
separators of a query is in it. -/
theorem keys_distinguish_iff (allowed : UInt16 → Prop) :
    (∀ (options : ResolvedCacheOptions) (first second : CacheKeyContext), options.key = none →
      Over allowed first → Over allowed second →
      options.buildCacheKey first = options.buildCacheKey second →
      SameDimensions options first second) ↔
    ¬ allowed EQUALS ∧ ¬ allowed AMPERSAND ∧ ¬ allowed COMMA := by
  constructor
  · intro distinguishes
    refine ⟨fun equals => ?_, fun ampersand => ?_, fun comma => ?_⟩
    · have same := distinguishes plainOptions _ _ rfl
        (over_queried (by decide) (by simp [EntryOver, equals]))
        (over_queried (by decide) (by simp [EntryOver, equals])) collides_equals
      exact absurd (same.query.mem_iff.mp List.mem_cons_self) (by decide)
    · have same := distinguishes plainOptions _ _ rfl
        (over_queried (by decide) (by simp [EntryOver, ampersand]))
        (over_queried (by decide) (by simp [EntryOver, ampersand])) collides_ampersand
      exact absurd (same.query.mem_iff.mp List.mem_cons_self) (by decide)
    · have same := distinguishes plainOptions _ _ rfl
        (over_queried (by decide) (by simp [EntryOver, comma]))
        (over_queried (by decide) (by simp [EntryOver, comma])) collides_comma
      exact absurd (same.query.mem_iff.mp List.mem_cons_self) (by decide)
  · rintro ⟨equals, ampersand, comma⟩ options first second noKey spelled spelled' same
    exact sameDimensions_of_key noKey spelled spelled' equals ampersand comma same

/-- A value with an ampersand and an equals sign reads like another parameter. -/
theorem ampersand_in_value_collides :
    plainOptions.buildCacheKey (queried [(units "a", [units "1"]), (units "b", [units "2"])]) =
      plainOptions.buildCacheKey (queried [(units "a", [units "1&b=2"])]) ∧
    ¬ SameDimensions plainOptions
      (queried [(units "a", [units "1"]), (units "b", [units "2"])])
      (queried [(units "a", [units "1&b=2"])]) := by
  constructor
  · decide
  · intro same
    exact absurd same.query.length_eq (by decide)

end Caching
