import Mathlib.Data.List.Nodup
import Mathlib.Data.List.Perm.Lattice
import Mathlib.Tactic.ByContra

/-!
# Selections under a budget

A set grows from its members of need by candidates in their order, as long as
its budget lasts.
-/

namespace Motrix.Lib

variable {Item : Type}

/-- A growth keeps what was selected and the budget, and takes candidates
only. -/
structure Grows (limit : Nat) (allowed : Item → Prop)
    (before after : List Item) : Prop where
  kept : ∀ item ∈ before, item ∈ after
  allowed : ∀ item ∈ after, item ∈ before ∨ allowed item
  nodup : before.Nodup → after.Nodup
  length : before.length ≤ limit → after.length ≤ limit

variable {limit : Nat} {allowed : Item → Prop} {selected : List Item}

theorem Grows.refl (selected : List Item) :
    Grows limit allowed selected selected where
  kept _ inside := inside
  allowed _ inside := .inl inside
  nodup distinct := distinct
  length bounded := bounded

theorem Grows.trans {before between after : List Item}
    (first : Grows limit allowed before between)
    (second : Grows limit allowed between after) :
    Grows limit allowed before after where
  kept item inside := second.kept item (first.kept item inside)
  allowed item inside := by
    rcases second.allowed item inside with earlier | candidate
    · exact first.allowed item earlier
    · exact .inr candidate
  nodup distinct := second.nodup (first.nodup distinct)
  length bounded := second.length (first.length bounded)

variable [DecidableEq Item]

/-- A set by insertion order. -/
def addTo (selected : List Item) (item : Item) : List Item :=
  if item ∈ selected then selected else selected ++ [item]

/-- Takes the chosen candidates until the selection is full. -/
def fill (limit : Nat) (chosen : Item → Bool) :
    List Item → List Item → List Item
  | [], selected => selected
  | candidate :: candidates, selected =>
      if selected.length < limit then
        fill limit chosen candidates
          (if chosen candidate then addTo selected candidate else selected)
      else selected

theorem mem_addTo {item other : Item} :
    other ∈ addTo selected item ↔ other ∈ selected ∨ other = item := by
  unfold addTo
  split
  · rename_i inside
    constructor
    · exact .inl
    · rintro (earlier | same)
      · exact earlier
      · exact same ▸ inside
  · rw [List.mem_append, List.mem_singleton]

theorem addTo_length_le (item : Item) :
    (addTo selected item).length ≤ selected.length + 1 := by
  unfold addTo
  split
  · exact Nat.le_succ _
  · simp

theorem addTo_nodup (distinct : selected.Nodup) (item : Item) :
    (addTo selected item).Nodup := by
  unfold addTo
  split
  · exact distinct
  · rename_i outside
    exact distinct.append (List.nodup_singleton _)
      (List.disjoint_singleton.mpr outside)

theorem grows_addTo (room : selected.length < limit) {item : Item}
    (candidate : allowed item) :
    Grows limit allowed selected (addTo selected item) where
  kept _ inside := mem_addTo.mpr (.inl inside)
  allowed other inside := by
    rcases mem_addTo.mp inside with earlier | same
    · exact .inl earlier
    · exact .inr (same ▸ candidate)
  nodup distinct := addTo_nodup distinct item
  length _ := Nat.le_trans (addTo_length_le item) room

theorem grows_fill (chosen : Item → Bool) {candidates : List Item}
    (candidate : ∀ item ∈ candidates, allowed item) :
    Grows limit allowed selected (fill limit chosen candidates selected) := by
  induction candidates generalizing selected with
  | nil => exact Grows.refl selected
  | cons first rest induction =>
      have later := fun item inside =>
        candidate item (List.mem_cons_of_mem first inside)
      unfold fill
      split
      · rename_i room
        split
        · exact (grows_addTo room (candidate first List.mem_cons_self)).trans
            (induction later)
        · exact induction later
      · exact Grows.refl selected

/-- Either the budget is used up or all candidates are selected. -/
theorem fill_full (candidates : List Item) :
    limit ≤ (fill limit (fun _ => true) candidates selected).length ∨
      ∀ item ∈ candidates,
        item ∈ fill limit (fun _ => true) candidates selected := by
  induction candidates generalizing selected with
  | nil =>
      right
      intro item inside
      cases inside
  | cons first rest induction =>
      unfold fill
      split
      · rename_i room
        rw [if_pos rfl]
        have outcome : limit ≤
              (fill limit (fun _ => true) rest
                (addTo selected first)).length ∨ _ := induction
        rcases outcome with full | taken
        · exact .inl full
        · right
          intro item inside
          rcases List.mem_cons.mp inside with same | later
          · have grows : Grows limit (· ∈ rest) (addTo selected first)
                (fill limit (fun _ => true) rest (addTo selected first)) :=
              grows_fill _ fun _ member => member
            exact grows.kept item (mem_addTo.mpr (.inr same))
          · exact taken item later
      · rename_i full
        exact .inl (Nat.le_of_not_lt full)

/-- A selection that may take all of enough items uses up its budget. -/
theorem fill_length {candidates items : List Item}
    (bounded : selected.length ≤ limit)
    (covered : ∀ item ∈ items, item ∈ selected ∨ item ∈ candidates)
    (itemsDistinct : items.Nodup) (enough : limit ≤ items.length) :
    (fill limit (fun _ => true) candidates selected).length = limit := by
  have grows : Grows limit (· ∈ candidates) selected
      (fill limit (fun _ => true) candidates selected) :=
    grows_fill _ fun _ member => member
  refine Nat.le_antisymm (grows.length bounded) ?_
  have outcome : limit ≤
        (fill limit (fun _ => true) candidates selected).length ∨ _ :=
    fill_full candidates
  rcases outcome with full | taken
  · exact full
  · refine Nat.le_trans enough (List.Nodup.length_le_of_subset itemsDistinct ?_)
    intro item inside
    rcases covered item inside with earlier | candidate
    · exact grows.kept item earlier
    · exact taken item candidate

end Motrix.Lib
