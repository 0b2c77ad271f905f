import Mathlib.Data.List.Nodup
import Mathlib.Data.List.Perm.Basic

/-!
# Maps from keys to sizes

A map is a list of entries with distinct keys.  An entry is put in place of
the one that has its key, or at the end; the total size follows every change
without a second look at the other entries.
-/

namespace Motrix.Lib.SizedMap

variable {Key : Type} [DecidableEq Key]

def sizeAt (entries : List (Key × Nat)) (key : Key) : Nat :=
  (entries.lookup key).getD 0

def put (entries : List (Key × Nat)) (key : Key) (size : Nat) :
    List (Key × Nat) :=
  if entries.any (·.1 = key) then
    entries.map fun entry => if entry.1 = key then (key, size) else entry
  else entries ++ [(key, size)]

def erase (entries : List (Key × Nat)) (key : Key) : List (Key × Nat) :=
  entries.filter fun entry => entry.1 ≠ key

def total (entries : List (Key × Nat)) : Nat :=
  entries.foldr (fun entry rest => entry.2 + rest) 0

section Laws

variable {entries : List (Key × Nat)} {key : Key} {size : Nat}

theorem not_any_of_notMem (fresh : key ∉ entries.map Prod.fst) :
    entries.any (·.1 = key) = false := by
  rw [List.any_eq_false]
  intro entry inside
  simp only [decide_eq_true_eq]
  intro same
  exact fresh (List.mem_map.mpr ⟨entry, inside, same⟩)

theorem map_of_not_any (absent : entries.any (·.1 = key) = false) :
    entries.map (fun entry => if entry.1 = key then (key, size) else entry) =
      entries := by
  induction entries with
  | nil => rfl
  | cons entry rest induction =>
      simp only [List.any_cons, Bool.or_eq_false_iff,
        decide_eq_false_iff_not] at absent
      rw [List.map_cons, if_neg absent.1, induction absent.2]

theorem erase_of_not_any (absent : entries.any (·.1 = key) = false) :
    erase entries key = entries := by
  induction entries with
  | nil => rfl
  | cons entry rest induction =>
      simp only [List.any_cons, Bool.or_eq_false_iff,
        decide_eq_false_iff_not] at absent
      unfold erase at induction ⊢
      rw [List.filter_cons_of_pos (by simpa using absent.1),
        induction absent.2]

theorem sizeAt_cons_self {entry : Key × Nat} {rest : List (Key × Nat)}
    (same : entry.1 = key) : sizeAt (entry :: rest) key = entry.2 := by
  unfold sizeAt
  rw [List.lookup_cons, ← same, beq_self_eq_true]
  rfl

theorem sizeAt_cons_of_ne {entry : Key × Nat} {rest : List (Key × Nat)}
    (differs : entry.1 ≠ key) :
    sizeAt (entry :: rest) key = sizeAt rest key := by
  unfold sizeAt
  rw [List.lookup_cons, beq_eq_false_iff_ne.mpr differs.symm]

/-- The size at a key is part of the total, and goes with its entry. -/
theorem total_erase (distinct : (entries.map Prod.fst).Nodup) :
    total (erase entries key) + sizeAt entries key = total entries := by
  induction entries with
  | nil => rfl
  | cons entry rest induction =>
      rw [List.map_cons, List.nodup_cons] at distinct
      obtain ⟨fresh, distinct⟩ := distinct
      by_cases same : entry.1 = key
      · have absent : rest.any (·.1 = key) = false := by
          rw [same] at fresh
          exact not_any_of_notMem fresh
        have erased : erase (entry :: rest) key = rest := by
          have removed : erase (entry :: rest) key = erase rest key :=
            List.filter_cons_of_neg (by simpa using same)
          rw [removed]
          exact erase_of_not_any absent
        rw [erased, sizeAt_cons_self same]
        exact Nat.add_comm _ _
      · have erased : erase (entry :: rest) key = entry :: erase rest key :=
          List.filter_cons_of_pos (by simpa using same)
        rw [erased, sizeAt_cons_of_ne same]
        show entry.2 + total (erase rest key) + sizeAt rest key =
          entry.2 + total rest
        rw [Nat.add_assoc, induction distinct]

/-- A put counts the new size in the place of the old one. -/
theorem total_put (distinct : (entries.map Prod.fst).Nodup) :
    total (put entries key size) + sizeAt entries key =
      total entries + size := by
  induction entries with
  | nil =>
      show size + 0 + 0 = 0 + size
      omega
  | cons entry rest induction =>
      rw [List.map_cons, List.nodup_cons] at distinct
      obtain ⟨fresh, distinct⟩ := distinct
      by_cases same : entry.1 = key
      · have absent : rest.any (·.1 = key) = false := by
          rw [same] at fresh
          exact not_any_of_notMem fresh
        have replaced : put (entry :: rest) key size = (key, size) :: rest := by
          unfold put
          rw [if_pos (by simp [same]), List.map_cons, if_pos same,
            map_of_not_any absent]
        rw [replaced, sizeAt_cons_self same]
        show size + total rest + entry.2 = entry.2 + total rest + size
        omega
      · have moved : put (entry :: rest) key size =
            entry :: put rest key size := by
          unfold put
          rw [List.any_cons]
          simp only [same, decide_false, Bool.false_or]
          split
          · rw [List.map_cons, if_neg same]
          · rfl
        rw [moved, sizeAt_cons_of_ne same]
        show entry.2 + total (put rest key size) + sizeAt rest key =
          entry.2 + total rest + size
        have rest := induction distinct
        omega

end Laws

end Motrix.Lib.SizedMap
