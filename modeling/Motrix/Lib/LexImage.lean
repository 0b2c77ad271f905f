import Mathlib.Order.Defs.LinearOrder

/-!
# Lists compared through an image

Lists are compared from the front, item by item.  An image of the items that
keeps their order but not all differences gives the order of the lists exactly
where it shows the first difference, or where what stands behind that
difference happens to agree with it.
-/

namespace Motrix.Lib

open Std

/-- Where the first items that differ have the same image, the images of the
rests are in their order. -/
def ShowsOrder {Item : Type} (cmp : Item → Item → Ordering)
    (image : Item → Item) (xs ys : List Item) : Prop :=
  ∀ front x y first second, xs = front ++ x :: first →
    ys = front ++ y :: second → x ≠ y → image x = image y →
      List.compareLex cmp (first.map image) (second.map image) = cmp x y

variable {Item : Type} {cmp : Item → Item → Ordering}
  {image : Item → Item}

theorem showsOrder_cons_self {x : Item} {xs ys : List Item} :
    ShowsOrder cmp image (x :: xs) (x :: ys) ↔
      ShowsOrder cmp image xs ys := by
  constructor
  · rintro shows front y z first second rfl rfl
    exact shows (x :: front) y z first second rfl rfl
  · intro shows front y z first second split other differ
    cases front with
    | nil =>
        simp only [List.nil_append, List.cons.injEq] at split other
        exact absurd (split.1.symm.trans other.1) differ
    | cons head front =>
        simp only [List.cons_append, List.cons.injEq] at split other
        exact shows front y z first second split.2 other.2 differ

theorem showsOrder_cons_of_ne {x y : Item} {xs ys : List Item}
    (differ : x ≠ y) :
    ShowsOrder cmp image (x :: xs) (y :: ys) ↔
      (image x = image y →
        List.compareLex cmp (xs.map image) (ys.map image) = cmp x y) := by
  constructor
  · intro shows
    exact shows [] x y xs ys rfl rfl differ
  · intro rests front a b first second split other _
    cases front with
    | nil =>
        simp only [List.nil_append, List.cons.injEq] at split other
        obtain ⟨rfl, rfl⟩ := split
        obtain ⟨rfl, rfl⟩ := other
        exact rests
    | cons head front =>
        simp only [List.cons_append, List.cons.injEq] at split other
        exact absurd (split.1.trans other.1.symm) differ

/-- The images are in the order of the lists exactly where they show it. -/
theorem compareLex_map_iff [LawfulEqCmp cmp]
    (ordered : ∀ x y, image x ≠ image y → cmp (image x) (image y) = cmp x y)
    (xs ys : List Item) :
    List.compareLex cmp (xs.map image) (ys.map image) =
        List.compareLex cmp xs ys ↔
      ShowsOrder cmp image xs ys := by
  induction xs generalizing ys with
  | nil =>
      have shows : ShowsOrder cmp image [] ys := by
        intro front x y first second split
        simp at split
      cases ys with
      | nil => simp [shows]
      | cons y ys => simp [shows, List.compareLex_nil_cons]
  | cons x xs induction =>
      cases ys with
      | nil =>
          have shows : ShowsOrder cmp image (x :: xs) [] := by
            intro front x y first second _ split
            simp at split
          simp [shows, List.compareLex_cons_nil]
      | cons y ys =>
          simp only [List.map_cons, List.compareLex_cons_cons]
          by_cases same : x = y
          · subst same
            simp [ReflCmp.compare_self, showsOrder_cons_self, induction]
          · rw [showsOrder_cons_of_ne same]
            have strict : cmp x y ≠ .eq := fun equal =>
              same (LawfulEqCmp.eq_of_compare equal)
            have fine : (cmp x y).then (List.compareLex cmp xs ys) =
                cmp x y := by
              cases order : cmp x y with
              | eq => exact absurd order strict
              | lt => rfl
              | gt => rfl
            rw [fine]
            by_cases images : image x = image y
            · simp [images, ReflCmp.compare_self]
            · rw [ordered x y images]
              cases order : cmp x y with
              | eq => exact absurd order strict
              | lt => simp [images]
              | gt => simp [images]

end Motrix.Lib
