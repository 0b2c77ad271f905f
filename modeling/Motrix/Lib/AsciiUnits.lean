import Mathlib.Data.List.TakeWhile
import Motrix.Lib.Utf16

/-!
# ASCII in strings of code units

Letters and digits among UTF-16 code units, the delimiters of a URL, and what
is read of a list up to a delimiter.
-/

namespace Motrix.Lib.AsciiUnits

open List

/-- A string of UTF-16 code units. -/
abbrev Text := List UInt16

def units (literal : String) : Text :=
  Utf16.encode literal.toList

def isLower (unit : UInt16) : Bool :=
  0x61 ≤ unit && unit ≤ 0x7a

def isUpper (unit : UInt16) : Bool :=
  0x41 ≤ unit && unit ≤ 0x5a

def isDigit (unit : UInt16) : Bool :=
  0x30 ≤ unit && unit ≤ 0x39

def lowerAscii (unit : UInt16) : UInt16 :=
  if isUpper unit then unit + 0x20 else unit

def isLineTerminator (unit : UInt16) : Bool :=
  [0x0a, 0x0d, 0x2028, 0x2029].contains unit

def hexDigit (unit : UInt16) : Option Nat :=
  if isDigit unit then some (unit.toNat - 0x30)
  else
    let lower := lowerAscii unit
    if 0x61 ≤ lower && lower ≤ 0x66 then some (lower.toNat - 0x57) else none

/-! ## Delimiters -/

def isSchemeUnit (unit : UInt16) : Bool :=
  isLower unit || isUpper unit || isDigit unit ||
    [0x2b, 0x2e, 0x2d].contains unit

def endsAuthority (unit : UInt16) : Bool :=
  [0x2f, 0x3f, 0x23].contains unit

def endsPath (unit : UInt16) : Bool :=
  [0x3f, 0x23].contains unit

/-- What follows `scheme://`. -/
def behindScheme : Text → Option Text
  | [] => none
  | first :: rest =>
      if isLower first || isUpper first then
        match rest.dropWhile isSchemeUnit with
        | 0x3a :: 0x2f :: 0x2f :: behind => some behind
        | _ => none
      else none

theorem lowerAscii_letter {unit : UInt16}
    (lower : isLower (lowerAscii unit) = true) :
    (isLower unit || isUpper unit) = true := by
  unfold lowerAscii at lower
  split at lower
  · simp [*]
  · simp [lower]

theorem letter_schemeUnit {unit : UInt16}
    (letter : (isLower unit || isUpper unit) = true) :
    isSchemeUnit unit = true := by
  rcases Bool.or_eq_true _ _ |>.mp letter with lower | upper
  · simp [isSchemeUnit, lower]
  · simp [isSchemeUnit, upper]

theorem behindScheme_scheme {first : UInt16} {rest : Text}
    (letter : (isLower first || isUpper first) = true)
    (scheme : ∀ unit ∈ rest, isSchemeUnit unit = true) (behind : Text) :
    behindScheme (first :: rest ++ 0x3a :: 0x2f :: 0x2f :: behind) =
      some behind := by
  have stops : isSchemeUnit 0x3a = false := rfl
  simp only [cons_append, behindScheme, letter, ↓reduceIte]
  rw [dropWhile_append_of_pos scheme, dropWhile_cons_of_neg (by simp [stops])]
  rfl

/-! ## Reading up to a delimiter -/

theorem takeWhile_stop {α : Type} {stops : α → Bool} {stop : α}
    (ends : stops stop = true) (before rest : List α) :
    (before ++ stop :: rest).takeWhile (!stops ·) =
      before.takeWhile (!stops ·) := by
  induction before with
  | nil => simp [ends]
  | cons head before induction =>
      cases kept : stops head <;> simp [kept, induction]

theorem dropWhile_stop {α : Type} {stops : α → Bool} {stop : α}
    (ends : stops stop = true) (before rest : List α) :
    (before ++ stop :: rest).dropWhile (!stops ·) =
      before.dropWhile (!stops ·) ++ stop :: rest := by
  induction before with
  | nil => simp [ends]
  | cons head before induction =>
      cases kept : stops head <;> simp [kept, induction]

theorem takeWhile_until {α : Type} {stops : α → Bool} {part rest : List α}
    (inside : ∀ unit ∈ part, stops unit = false)
    (behind : ∀ unit ∈ rest.head?, stops unit = true) :
    (part ++ rest).takeWhile (!stops ·) = part := by
  have kept : ∀ unit ∈ part, (!stops unit) = true := by
    simpa using inside
  rw [takeWhile_append_of_pos kept]
  cases rest with
  | nil => simp
  | cons first rest => simp [behind first rfl]

theorem dropWhile_until {α : Type} {stops : α → Bool} {part rest : List α}
    (inside : ∀ unit ∈ part, stops unit = false)
    (behind : ∀ unit ∈ rest.head?, stops unit = true) :
    (part ++ rest).dropWhile (!stops ·) = rest := by
  have kept : ∀ unit ∈ part, (!stops unit) = true := by
    simpa using inside
  rw [dropWhile_append_of_pos kept]
  cases rest with
  | nil => rfl
  | cons first rest => simp [behind first rfl]

theorem dropWhile_starts {α : Type} (stops : α → Bool) (values : List α) :
    ∀ unit ∈ (values.dropWhile (!stops ·)).head?, stops unit = true := by
  induction values with
  | nil => simp
  | cons first values induction =>
      cases found : stops first <;> simp_all

theorem takeWhile_inside {α : Type} {stops : α → Bool} {values : List α} :
    ∀ unit ∈ values.takeWhile (!stops ·), stops unit = false := by
  intro unit member
  simpa using mem_takeWhile_imp member

theorem takeWhile_head {α : Type} {keeps : α → Bool} {values : List α} :
    ∀ unit ∈ (values.takeWhile keeps).head?, unit ∈ values.head? := by
  cases values with
  | nil => simp
  | cons first values => cases kept : keeps first <;> simp [kept]

end Motrix.Lib.AsciiUnits
