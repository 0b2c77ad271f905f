import Mathlib.Data.List.Infix

/-!
# The first place of a text

A search reads a text at its places from the front and takes what the first
place that can be read holds.
-/

namespace Motrix.Lib

variable {Symbol Found : Type}

def firstPlace (read : List Symbol → Option Found) (text : List Symbol) :
    Option Found :=
  text.tails.findSome? read

/-- The first place of the left part; the text goes on behind it. -/
def firstWithin (read : List Symbol → Option Found) :
    List Symbol → List Symbol → Option Found
  | [], _ => none
  | symbol :: left, rest =>
      (read (symbol :: left ++ rest)).or (firstWithin read left rest)

variable {read : List Symbol → Option Found}

theorem firstPlace_nil : firstPlace read [] = read [] := by
  unfold firstPlace
  rw [List.tails, List.findSome?_singleton]

theorem firstPlace_cons (symbol : Symbol) (rest : List Symbol) :
    firstPlace read (symbol :: rest) =
      (read (symbol :: rest)).or (firstPlace read rest) := by
  unfold firstPlace
  rw [List.tails, List.findSome?_cons]
  cases read (symbol :: rest) <;> rfl

theorem firstPlace_append (left rest : List Symbol) :
    firstPlace read (left ++ rest) =
      (firstWithin read left rest).or (firstPlace read rest) := by
  induction left with
  | nil => rfl
  | cons symbol left induction =>
      rw [List.cons_append, firstPlace_cons, induction, firstWithin,
        Option.or_assoc]
      rfl

theorem firstWithin_append (left right rest : List Symbol) :
    firstWithin read (left ++ right) rest =
      (firstWithin read left (right ++ rest)).or
        (firstWithin read right rest) := by
  induction left with
  | nil => rfl
  | cons symbol left induction =>
      rw [List.cons_append, firstWithin, firstWithin, induction,
        Option.or_assoc, List.cons_append, List.append_assoc]
      rfl

theorem firstWithin_eq_none {left rest : List Symbol}
    (unread : ∀ suffix, suffix ≠ [] → suffix <:+ left →
      read (suffix ++ rest) = none) :
    firstWithin read left rest = none := by
  induction left with
  | nil => rfl
  | cons symbol left induction =>
      rw [firstWithin, unread _ (List.cons_ne_nil _ _) (List.suffix_refl _),
        Option.none_or]
      exact induction fun suffix filled within =>
        unread suffix filled (within.trans (List.suffix_cons symbol left))

/-- Reading that does not depend on what follows. -/
theorem firstWithin_eq_map {Other : Type} {left rest : List Symbol}
    {inner : List Symbol → Option Other} {change : Other → Found}
    (blank : inner [] = none)
    (agree : ∀ suffix, suffix ≠ [] → suffix <:+ left →
      read (suffix ++ rest) = (inner suffix).map change) :
    firstWithin read left rest = (firstPlace inner left).map change := by
  induction left with
  | nil => rw [firstPlace_nil, blank]; rfl
  | cons symbol left induction =>
      rw [firstWithin, agree _ (List.cons_ne_nil _ _) (List.suffix_refl _),
        firstPlace_cons, induction fun suffix filled within =>
          agree suffix filled (within.trans (List.suffix_cons symbol left))]
      cases inner (symbol :: left) <;> rfl

theorem firstPlace_isSome {text : List Symbol} :
    (firstPlace read text).isSome ↔
      ∃ suffix, suffix <:+ text ∧ (read suffix).isSome := by
  unfold firstPlace
  rw [List.isSome_findSome?, List.any_eq_true]
  simp only [List.mem_tails]

end Motrix.Lib
