import Mathlib.Algebra.Group.Defs
import Mathlib.Data.List.Perm.Basic
import Mathlib.Tactic.Abel

/-!
# Amounts under keys

Amounts are kept under keys, and the amounts under some of the keys are added
up.  What is credited to a key is found again in every such sum.
-/

namespace Motrix.Lib.Tally

variable {κ α : Type} [AddCommMonoid α] {wanted : κ → Bool}
  {list : List (κ × α)}

def tally (wanted : κ → Bool) : List (κ × α) → α
  | [] => 0
  | entry :: rest => (if wanted entry.1 then entry.2 else 0) + tally wanted rest

/-- An amount is added to the first entry of its key. -/
def credit [DecidableEq κ] (key : κ) (amount : α) :
    List (κ × α) → List (κ × α)
  | [] => [(key, amount)]
  | entry :: rest =>
      if entry.1 = key then (key, entry.2 + amount) :: rest
      else entry :: credit key amount rest

theorem tally_append (first second : List (κ × α)) :
    tally wanted (first ++ second) =
      tally wanted first + tally wanted second := by
  induction first with
  | nil => exact (zero_add _).symm
  | cons entry rest induction =>
      rw [List.cons_append, tally, tally, induction, add_assoc]

theorem tally_perm {first second : List (κ × α)} (same : first.Perm second) :
    tally wanted first = tally wanted second := by
  induction same with
  | nil => rfl
  | cons entry _ induction => rw [tally, tally, induction]
  | swap first second rest => exact add_left_comm _ _ _
  | trans _ _ left right => exact left.trans right

theorem tally_credit [DecidableEq κ] (key : κ) (amount : α) :
    tally wanted (credit key amount list) =
      tally wanted list + (if wanted key then amount else 0) := by
  induction list with
  | nil => simp [credit, tally]
  | cons entry rest induction =>
      rw [credit]
      split
      · next same =>
          rw [tally, tally, same]
          split <;> simp only [zero_add, add_zero]
          abel
      · rw [tally, tally, induction, add_assoc]

/-- Entries that are not wanted or empty may go. -/
theorem tally_filter {keep : κ × α → Bool}
    (dropped : ∀ entry ∈ list, keep entry = false →
      wanted entry.1 = false ∨ entry.2 = 0) :
    tally wanted (list.filter keep) = tally wanted list := by
  induction list with
  | nil => rfl
  | cons entry rest induction =>
      obtain ⟨here, others⟩ := List.forall_mem_cons.mp dropped
      rw [List.filter_cons]
      split
      · rw [tally, tally, induction others]
      · next gone =>
          rw [induction others, tally]
          rcases here (Bool.eq_false_iff.mpr gone) with unwanted | empty
          · simp [unwanted]
          · simp [empty]

/-- The wanted entries alone. -/
theorem tally_wanted :
    tally (fun _ => true) (list.filter fun entry => wanted entry.1) =
      tally wanted list := by
  induction list with
  | nil => rfl
  | cons entry rest induction =>
      rw [List.filter_cons, tally, ← induction]
      cases wanted entry.1 with
      | true => rfl
      | false => exact (zero_add _).symm

theorem foldl_tally (start : α) :
    list.foldl
        (fun sum entry => if wanted entry.1 then sum + entry.2 else sum) start =
      start + tally wanted list := by
  induction list generalizing start with
  | nil => exact (add_zero _).symm
  | cons entry rest induction =>
      rw [List.foldl_cons, induction, tally]
      split
      · rw [add_assoc]
      · rw [zero_add]

end Motrix.Lib.Tally
