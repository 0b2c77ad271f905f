import Mathlib.Data.List.Basic

/-!
# Texts of separated parts

A path is a list of parts joined by a separator.  Of two texts one is an
ancestor of the other when the other continues it after a separator.
-/

namespace Motrix.Lib.Separated

variable {Unit : Type} {sep : Unit}

theorem intercalate_append {front back : List (List Unit)}
    (first : front ≠ []) (last : back ≠ []) :
    [sep].intercalate (front ++ back) =
      [sep].intercalate front ++ sep :: [sep].intercalate back := by
  induction front with
  | nil => exact absurd rfl first
  | cons part rest induction =>
      cases rest with
      | nil =>
          obtain ⟨next, others, rfl⟩ := List.exists_cons_of_ne_nil last
          simp
      | cons next others =>
          have rest' := induction (List.cons_ne_nil _ _)
          simp only [List.cons_append] at rest'
          simp [rest']

def Ancestor (sep : Unit) (parent child : List Unit) : Prop :=
  ∃ rest, child = parent ++ sep :: rest

theorem Ancestor.irrefl (path : List Unit) : ¬Ancestor sep path path := by
  rintro ⟨rest, same⟩
  have lengths := congrArg List.length same
  simp at lengths

theorem ancestor_below (base : List Unit) {parent child : List Unit} :
    Ancestor sep (base ++ sep :: parent) (base ++ sep :: child) ↔
      Ancestor sep parent child := by
  constructor
  · rintro ⟨rest, same⟩
    refine ⟨rest, ?_⟩
    simpa using same
  · rintro ⟨rest, rfl⟩
    exact ⟨rest, by simp⟩

/-- The parts of an ancestor come first. -/
theorem Ancestor.splitOn [DecidableEq Unit] {parent child : List Unit}
    (ancestor : Ancestor sep parent child) :
    ∃ rest, rest ≠ [] ∧
      child.splitOn sep = parent.splitOn sep ++ rest := by
  obtain ⟨rest, rfl⟩ := ancestor
  refine ⟨rest.splitOn sep, List.splitOn_ne_nil _ _, ?_⟩
  exact List.splitOn_append_cons_self parent rest

/-! ## Texts that a map sends part by part -/

/-- The map keeps separators and makes none. -/
structure PartWise (sep : Unit) (map : List Unit → List Unit) : Prop where
  separates : ∀ front back, map (front ++ sep :: back) =
    map front ++ sep :: map back
  fresh : ∀ text, sep ∈ map text → sep ∈ text

theorem PartWise.id : PartWise sep fun text => text := by
  constructor
  · intro front back
    rfl
  · intro text inside
    exact inside

end Motrix.Lib.Separated
