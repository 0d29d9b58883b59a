import Hakawi.Html.Units
import Mathlib.Data.Nat.Digits.Lemmas

/-!
# Ids as texts

The server reads several texts as one `uuid` and prints it in one of them: letters of either
case, hyphens or none. The services compare the texts.
-/

namespace Common
open Html

structure UuidText where
  /-- What the server takes a text for. -/
  parse : Units → Option Nat
  print : Nat → Units
  parse_print : ∀ id, parse (print id) = some id

namespace UuidText

section Hexadecimal

def hexValue (u : UInt16) : Nat :=
  if isDigit u then u.toNat - 48 else if 97 ≤ u then u.toNat - 87 else u.toNat - 55

def hexUnit (digit : Nat) : UInt16 :=
  if digit < 10 then (48 + digit).toUInt16 else (87 + digit).toUInt16

def UUID_HYPHEN : UInt16 := 45

/-- The digits of an id, the last one first, at least 32 of them. -/
def hexDigits (id : Nat) : List Nat :=
  Nat.digits 16 id ++ List.replicate (32 - (Nat.digits 16 id).length) 0

/-- The places of the hyphens. -/
def hyphenated : Nat → Units → Units
  | _, [] => []
  | place, u :: rest =>
    if place ∈ [8, 12, 16, 20] then UUID_HYPHEN :: u :: hyphenated (place + 1) rest
    else u :: hyphenated (place + 1) rest

theorem hexUnit_spec : ∀ digit < 16, isHexDigit (hexUnit digit) ∧ hexUnit digit ≠ UUID_HYPHEN ∧
    hexValue (hexUnit digit) = digit := by decide

theorem hexDigits_lt {id digit : Nat} (member : digit ∈ hexDigits id) : digit < 16 := by
  rcases List.mem_append.mp member with own | padding
  · exact Nat.digits_lt_base (by decide) own
  · rw [List.eq_of_mem_replicate padding]
    decide

theorem filter_hyphenated {text : Units} (plain : ∀ u ∈ text, u ≠ UUID_HYPHEN) (place : Nat) :
    (hyphenated place text).filter (· ≠ UUID_HYPHEN) = text := by
  induction text generalizing place with
  | nil => rfl
  | cons u rest ih =>
    have here := plain u List.mem_cons_self
    have later := ih (fun v member => plain v (List.mem_cons_of_mem u member)) (place + 1)
    rw [hyphenated]
    split
    · rw [List.filter_cons_of_neg (by simp), List.filter_cons_of_pos (by simpa using here), later]
    · rw [List.filter_cons_of_pos (by simpa using here), later]

/-- Hexadecimal digits, with hyphens among them. -/
def hexadecimal : UuidText where
  parse text :=
    let digits := text.filter (· ≠ UUID_HYPHEN)
    if digits ≠ [] ∧ ∀ u ∈ digits, isHexDigit u then
      some (Nat.ofDigits 16 (digits.map hexValue).reverse)
    else none
  print id := hyphenated 0 ((hexDigits id).reverse.map hexUnit)
  parse_print id := by
    have digits : ∀ u ∈ (hexDigits id).reverse.map hexUnit, isHexDigit u ∧ u ≠ UUID_HYPHEN := by
      intro u member
      obtain ⟨digit, inside, rfl⟩ := List.mem_map.mp member
      obtain ⟨hex, plain, -⟩ := hexUnit_spec digit (hexDigits_lt (List.mem_reverse.mp inside))
      exact ⟨hex, plain⟩
    have nonempty : (hexDigits id).reverse.map hexUnit ≠ [] := by
      have long : 0 < (hexDigits id).length := by
        simp only [hexDigits, List.length_append, List.length_replicate]
        omega
      intro empty
      have := congrArg List.length empty
      simp only [List.length_map, List.length_reverse, List.length_nil] at this
      omega
    have values : ((hexDigits id).reverse.map hexUnit).map hexValue = (hexDigits id).reverse := by
      rw [List.map_map]
      conv_rhs => rw [← List.map_id (hexDigits id).reverse]
      refine List.map_congr_left fun digit member => ?_
      exact (hexUnit_spec digit (hexDigits_lt (List.mem_reverse.mp member))).2.2
    simp only
    rw [filter_hyphenated fun u member => (digits u member).2,
      if_pos ⟨nonempty, fun u member => (digits u member).1⟩, values, List.reverse_reverse,
      hexDigits, Nat.ofDigits_append_replicate_zero, Nat.ofDigits_digits]

end Hexadecimal
end UuidText
end Common
