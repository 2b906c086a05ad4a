/-
  Shared/HtmlText.lean --- decoding the entities of an HTML text.

  Source: `domain/shared/text/html_text.rs`.
-/
import Mathlib.Algebra.Group.Nat.Defs
import Mathlib.Data.Char

namespace Quecto.Shared

open List

def maxEntityBytes : Nat := 12

/-- The text up to byte `reach`, unless that byte is inside a character. -/
def upTo : List Char → Nat → Option (List Char)
  | [], _ => some []
  | c :: rest, reach =>
    if reach = 0 then some []
    else if c.utf8Size ≤ reach then (upTo rest (reach - c.utf8Size)).map (c :: ·)
    else none

def toDigit (radix : Nat) (c : Char) : Option Nat :=
  let digit :=
    if c.isDigit then c.toNat - '0'.toNat
    else if 'a' ≤ c ∧ c ≤ 'f' then c.toNat - 'a'.toNat + 10
    else if 'A' ≤ c ∧ c ≤ 'F' then c.toNat - 'A'.toNat + 10
    else radix
  if digit < radix then some digit else none

def fromDigits (radix : Nat) : Nat → List Char → Option Nat
  | value, [] => some value
  | value, c :: rest =>
    match toDigit radix c with
    | some digit =>
      if value * radix + digit < 2 ^ 32 then fromDigits radix (value * radix + digit) rest else none
    | none => none

def fromStrRadix (radix : Nat) : List Char → Option Nat
  | [] | ['+'] => none
  | '+' :: digits => fromDigits radix 0 digits
  | digits => fromDigits radix 0 digits

def charFromU32 (value : Nat) : Option Char :=
  if value.isValidChar then some (Char.ofNat value) else none

def decodeEntity : List Char → Option Char
  | ['a', 'm', 'p'] => some '&'
  | ['l', 't'] => some '<'
  | ['g', 't'] => some '>'
  | ['q', 'u', 'o', 't'] => some '"'
  | ['a', 'p', 'o', 's'] | ['#', '3', '9'] => some '\''
  | ['n', 'b', 's', 'p'] => some ' '
  | '#' :: 'x' :: hex | '#' :: 'X' :: hex => (fromStrRadix 16 hex).bind charFromU32
  | '#' :: number => (fromStrRadix 10 number).bind charFromU32
  | _ => none

/-- The character of the entity that a text starts with, and where its semicolon is. -/
def entityAt (text : List Char) : Option (Char × Nat) :=
  match ((upTo text maxEntityBytes).getD []).idxOf? ';' with
  | some semi => (decodeEntity ((text.take semi).drop 1)).map (·, semi)
  | none => none

def decodeFrom : Nat → List Char → List Char
  | _, [] => []
  | skipped + 1, _ :: rest => decodeFrom skipped rest
  | 0, c :: rest =>
    if c = '&' then
      match entityAt (c :: rest) with
      | some (decoded, semi) => decoded :: decodeFrom semi rest
      | none => '&' :: decodeFrom 0 rest
    else c :: decodeFrom 0 rest

def decodeEntities (text : List Char) : List Char := decodeFrom 0 text

/-! ## Entities that are known -/

variable {radix value : Nat} {digits name text after : List Char} {decoded : Char}

def bytes : List Char → Nat
  | [] => 0
  | c :: rest => c.utf8Size + bytes rest

lemma fromDigits_plain (h : fromDigits radix value digits ≠ none) :
    ';' ∉ digits ∧ '&' ∉ digits := by
  induction digits generalizing value with
  | nil => simp
  | cons c rest ih =>
    rw [fromDigits] at h
    split at h
    · rename_i digit hdigit
      split at h
      · obtain ⟨hsemi, hamp⟩ := ih h
        constructor
        · rintro (_ | ⟨_, hmem⟩)
          · simp [toDigit] at hdigit
          · exact hsemi hmem
        rintro (_ | ⟨_, hmem⟩)
        · simp [toDigit] at hdigit
        · exact hamp hmem
      · exact absurd rfl h
    · exact absurd rfl h

lemma fromStrRadix_plain (h : fromStrRadix radix digits ≠ none) : ';' ∉ digits ∧ '&' ∉ digits := by
  unfold fromStrRadix at h
  split at h
  · exact absurd rfl h
  · exact absurd rfl h
  · simpa using fromDigits_plain h
  · exact fromDigits_plain h

lemma decodeEntity_plain (h : decodeEntity name = some decoded) : ';' ∉ name ∧ '&' ∉ name := by
  have hparsed : ∀ {radix digits}, (fromStrRadix radix digits).bind charFromU32 = some decoded →
      fromStrRadix radix digits ≠ none := by
    intro radix digits hsome hnone
    rw [hnone] at hsome
    cases hsome
  unfold decodeEntity at h
  split at h
  case h_11 => cases h
  case h_8 | h_9 | h_10 => simpa using fromStrRadix_plain (hparsed h)
  all_goals decide

/-! ## Texts with an entity -/

lemma decodeFrom_append {before : List Char} (h : '&' ∉ before) (text : List Char) :
    decodeFrom 0 (before ++ text) = before ++ decodeFrom 0 text := by
  induction before with
  | nil => rfl
  | cons c rest ih =>
    rw [mem_cons, not_or] at h
    rw [cons_append, decodeFrom, if_neg (Ne.symm h.1), ih h.2, cons_append]

lemma decodeFrom_length (skipped text : List Char) :
    decodeFrom skipped.length (skipped ++ text) = decodeFrom 0 text := by
  induction skipped with
  | nil => rfl
  | cons c rest ih => exact ih

lemma upTo_append {reach : Nat} (h : bytes text ≤ reach) :
    upTo (text ++ after) reach = (upTo after (reach - bytes text)).map (text ++ ·) := by
  induction text generalizing reach with
  | nil => simp [bytes]
  | cons c rest ih =>
    rw [bytes] at h ⊢
    have hpos := c.utf8Size_pos
    rw [cons_append, upTo, if_neg (by omega), if_pos (by omega), ih (by omega),
      Nat.sub_add_eq, Option.map_map]
    rfl

lemma idxOf?_semicolon (h : ';' ∉ text) (after : List Char) :
    (text ++ ';' :: after).idxOf? ';' = some text.length := by
  induction text with
  | nil => simp [List.idxOf?_cons]
  | cons c rest ih =>
    rw [mem_cons, not_or] at h
    simp [List.idxOf?_cons, Ne.symm h.1, ih h.2]

lemma entityAt_known (hknown : decodeEntity name = some decoded)
    (hfits : bytes ('&' :: (name ++ [';'])) ≤ maxEntityBytes) :
    entityAt ('&' :: (name ++ ';' :: after)) =
      if (upTo ('&' :: (name ++ ';' :: after)) maxEntityBytes).isSome then
        some (decoded, name.length + 1)
      else none := by
  have hsplit : '&' :: (name ++ ';' :: after) = '&' :: (name ++ [';']) ++ after := by simp
  have hplain : ';' ∉ '&' :: name := by simpa using (decodeEntity_plain hknown).1
  rw [entityAt]
  cases hup : upTo ('&' :: (name ++ ';' :: after)) maxEntityBytes with
  | none => rfl
  | some window =>
    rw [hsplit, upTo_append hfits] at hup
    obtain ⟨rest, -, rfl⟩ := Option.map_eq_some_iff.mp hup
    have hindex := idxOf?_semicolon hplain rest
    simp at hindex
    simp [hindex, hknown]

/-- An entity that is known decodes, whatever stands around it, exactly when the reach of
an entity does not end inside a character. -/
theorem entities_decode_iff (before name after : List Char) (decoded : Char)
    (hbefore : '&' ∉ before) (hknown : decodeEntity name = some decoded)
    (hfits : bytes ('&' :: (name ++ [';'])) ≤ maxEntityBytes) :
    decodeEntities (before ++ '&' :: (name ++ ';' :: after)) =
        before ++ decoded :: decodeEntities after ↔
      (upTo ('&' :: (name ++ ';' :: after)) maxEntityBytes).isSome = true := by
  have hrest : decodeFrom (name.length + 1) (name ++ ';' :: after) = decodeFrom 0 after := by
    have hskip := decodeFrom_length (name ++ [';']) after
    simpa using hskip
  rw [decodeEntities, decodeFrom_append hbefore, decodeEntities, append_cancel_left_eq,
    decodeFrom, if_pos rfl, entityAt_known hknown hfits]
  split_ifs with hreached
  · simp [hreached, hrest]
  -- the ampersand and all of the entity stay
  have hplain : '&' ∉ name ++ [';'] := by simpa using (decodeEntity_plain hknown).2
  have hstays := decodeFrom_append hplain after
  simp only [append_assoc, singleton_append] at hstays
  refine iff_of_false (fun hsame => ?_) hreached
  have hlength := congrArg List.length hsame
  simp only [hstays, length_cons, length_append] at hlength
  omega

theorem entities_decode_short : decodeEntities "a &lt; b".toList = "a < b".toList :=
  (entities_decode_iff ['a', ' '] ['l', 't'] [' ', 'b'] '<' (by decide) (by decide) (by decide)).mpr
    (by decide)

/-- The twelfth byte after the ampersand is inside the last letter: nothing is decoded. -/
theorem entity_before_wide_letter :
    decodeEntities "&amp;aaaaaaé".toList = "&amp;aaaaaaé".toList := by
  decide

end Quecto.Shared
