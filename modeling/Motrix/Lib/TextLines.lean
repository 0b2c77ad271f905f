import Mathlib.Data.List.Basic

/-!
# Lines of a text

A text is split at line feeds, each with the carriage return before it.
-/

namespace Motrix.Lib.TextLines

/-- What `trim` takes away and `\\s` matches. -/
def isSpace (letter : Char) : Bool :=
  [9, 10, 11, 12, 13, 32, 160, 0x1680, 0x2028, 0x2029, 0x202f, 0x205f, 0x3000,
      0xfeff].contains letter.toNat ||
    decide (0x2000 ≤ letter.toNat ∧ letter.toNat ≤ 0x200a)

def addLetter (letter : Char) : List (List Char) → List (List Char)
  | [] => [[letter]]
  | line :: rest => (letter :: line) :: rest

def splitLines : List Char → List (List Char)
  | [] => [[]]
  | letter :: rest =>
      if letter = '\n' then [] :: splitLines rest
      else if letter = '\r' && rest.head? == some '\n' then splitLines rest
      else addLetter letter (splitLines rest)

/-- A line has no line break of any kind. -/
def Plain (line : List Char) : Prop :=
  '\n' ∉ line ∧ '\r' ∉ line

theorem splitLines_plain {line : List Char} (plain : Plain line)
    (rest : List Char) :
    splitLines (line ++ '\n' :: rest) = line :: splitLines rest := by
  induction line with
  | nil => simp [splitLines]
  | cons letter line induction =>
      have feed : letter ≠ '\n' := fun same => plain.1 (by simp [same])
      have carriage : letter ≠ '\r' := fun same => plain.2 (by simp [same])
      have later := induction ⟨fun inside => plain.1 (by simp [inside]),
        fun inside => plain.2 (by simp [inside])⟩
      rw [List.cons_append, splitLines, if_neg feed, if_neg, later]
      · rfl
      · simp [carriage]

/-- Lines that are each ended by a line feed are read back. -/
theorem splitLines_flatMap {lines : List (List Char)}
    (plain : ∀ line ∈ lines, Plain line) (rest : List Char) :
    splitLines (lines.flatMap (· ++ ['\n']) ++ rest) =
      lines ++ splitLines rest := by
  induction lines with
  | nil => rfl
  | cons line others induction =>
      obtain ⟨here, later⟩ := List.forall_mem_cons.mp plain
      rw [List.flatMap_cons, List.append_assoc, List.append_assoc,
        List.singleton_append, splitLines_plain here, induction later]
      rfl

end Motrix.Lib.TextLines
