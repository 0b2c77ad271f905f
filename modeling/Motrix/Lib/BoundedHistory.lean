import Mathlib.Data.List.Basic
import Mathlib.Tactic.ByContra

/-!
# Bounded histories

A history that keeps its newest items up to a limit, and with them the first
item of a pinned kind however old it gets.
-/

namespace Motrix.Lib

variable {Item : Type}

def newest (count : Nat) (items : List Item) : List Item :=
  items.drop (items.length - count)

/-- The newest items, the first pinned one in place of the oldest of them once
it has fallen out of their range. -/
def retained (limit : Nat) (pinned : Item → Bool) (items : List Item) :
    List Item :=
  match items.findIdx? pinned with
  | some index =>
      if index + limit < items.length then
        items[index]?.toList ++ newest (limit - 1) items
      else
        newest limit items
  | none => newest limit items

/-- Without the oldest item that may go. -/
def dropOldest (pinned : Item → Bool) : List Item → List Item
  | [] => []
  | [item] => [item]
  | first :: second :: items =>
      if pinned first then first :: items else second :: items

variable {limit : Nat} {pinned : Item → Bool} {items : List Item}

theorem newest_short (short : items.length ≤ limit) :
    newest limit items = items := by
  unfold newest
  rw [Nat.sub_eq_zero_of_le short, List.drop_zero]

theorem newest_length : (newest limit items).length =
    min items.length limit := by
  unfold newest
  rw [List.length_drop]
  omega

theorem newest_concat (long : limit ≤ items.length) (item : Item) :
    newest (limit + 1) (items ++ [item]) = newest limit items ++ [item] := by
  unfold newest
  have start : (items ++ [item]).length - (limit + 1) =
      items.length - limit := by
    rw [List.length_append, List.length_singleton]
    omega
  rw [start, List.drop_append_of_le_length (Nat.sub_le _ _)]

theorem newest_tail (short : limit < items.length) :
    (newest (limit + 1) items).tail = newest limit items := by
  unfold newest
  rw [List.tail_drop]
  congr 1
  omega

theorem retained_short (short : items.length ≤ limit) :
    retained limit pinned items = items := by
  unfold retained
  cases found : items.findIdx? pinned with
  | none => exact newest_short short
  | some index =>
      have near : ¬ index + limit < items.length := by omega
      simp only [if_neg near]
      exact newest_short short

theorem findIdx?_lt {index : Nat}
    (found : items.findIdx? pinned = some index) : index < items.length := by
  obtain ⟨bound, -⟩ := List.findIdx?_eq_some_iff_getElem.mp found
  exact bound

theorem retained_length (positive : 0 < limit) :
    (retained limit pinned items).length = min items.length limit := by
  unfold retained
  cases found : items.findIdx? pinned with
  | none => exact newest_length
  | some index =>
      by_cases far : index + limit < items.length
      · have bound := findIdx?_lt found
        simp only [if_pos far]
        rw [List.getElem?_eq_getElem bound, Option.toList_some,
          List.length_append, newest_length, List.length_singleton]
        omega
      · simp only [if_neg far]
        exact newest_length

theorem retained_sublist (positive : 0 < limit) :
    (retained limit pinned items).Sublist items := by
  unfold retained
  cases found : items.findIdx? pinned with
  | none => exact List.drop_sublist _ _
  | some index =>
      by_cases far : index + limit < items.length
      · have bound := findIdx?_lt found
        simp only [if_pos far]
        rw [List.getElem?_eq_getElem bound, Option.toList_some]
        have front : [items[index]].Sublist (items.take (index + 1)) := by
          rw [List.take_succ_eq_append_getElem bound]
          exact List.sublist_append_right _ _
        have back : (newest (limit - 1) items).Sublist
            (items.drop (index + 1)) := by
          apply List.drop_sublist_drop_left
          omega
        have both := front.append back
        rw [List.take_append_drop] at both
        exact both
      · simp only [if_neg far]
        exact List.drop_sublist _ _

theorem dropOldest_pinned {first : Item} (isPinned : pinned first = true)
    (item : Item) :
    dropOldest pinned (first :: items ++ [item]) =
      first :: (items ++ [item]).tail := by
  cases items with
  | nil =>
      rw [List.cons_append, List.nil_append, dropOldest, if_pos isPinned]
      rfl
  | cons second items =>
      rw [List.cons_append, List.cons_append, dropOldest, if_pos isPinned]
      rfl

theorem dropOldest_map {Source : Type} (view : Source → Item)
    (sources : List Source) :
    dropOldest pinned (sources.map view) =
      (dropOldest (fun source => pinned (view source)) sources).map view := by
  match sources with
  | [] => rfl
  | [source] => rfl
  | first :: second :: sources =>
      simp only [List.map_cons, dropOldest, apply_ite (List.map view)]

theorem dropOldest_cons_plain (mark : Item → Bool) {first : Item}
    (plain : ¬ mark first = true) (more : items ≠ []) :
    dropOldest mark (first :: items) = items := by
  cases items with
  | nil => exact absurd rfl more
  | cons second items => rw [dropOldest, if_neg plain]

theorem dropOldest_plain {first : Item} (plain : ¬ pinned first = true)
    (item : Item) :
    dropOldest pinned (first :: items ++ [item]) = items ++ [item] :=
  dropOldest_cons_plain pinned plain (List.append_ne_nil_of_right_ne_nil _
    (List.cons_ne_nil item []))

theorem findIdx?_concat_some {index : Nat}
    (found : items.findIdx? pinned = some index) (item : Item) :
    (items ++ [item]).findIdx? pinned = some index := by
  rw [List.findIdx?_append, found, Option.some_or]

/-- With no pinned item out of the newest ones, these are all that is kept. -/
theorem retained_newest
    (near : ∀ index, items.findIdx? pinned = some index →
      items.length ≤ index + limit) :
    retained limit pinned items = newest limit items := by
  unfold retained
  cases found : items.findIdx? pinned with
  | none => rfl
  | some index =>
      have notFar : ¬ index + limit < items.length :=
        Nat.not_lt_of_le (near index found)
      simp only [if_neg notFar]

theorem retained_far {index : Nat} (bound : index < items.length)
    (found : items.findIdx? pinned = some index)
    (far : index + limit < items.length) :
    retained limit pinned items =
      items[index] :: newest (limit - 1) items := by
  unfold retained
  simp only [found, if_pos far, List.getElem?_eq_getElem bound]
  rfl

theorem newest_cons (positive : 0 < limit) (full : limit ≤ items.length) :
    newest limit items =
      items[items.length - limit] :: newest (limit - 1) items := by
  unfold newest
  have next : items.length - (limit - 1) = items.length - limit + 1 := by
    omega
  rw [next, ← List.drop_eq_getElem_cons]

theorem newest_concat_tail (full : limit ≤ items.length) (item : Item) :
    (newest limit items ++ [item]).tail =
      newest limit (items ++ [item]) := by
  rw [← newest_concat full, newest_tail]
  rw [List.length_append, List.length_singleton]
  omega

theorem dropOldest_retained_near (positive : 0 < limit)
    (full : limit ≤ items.length)
    (near : ∀ index, items.findIdx? pinned = some index →
      items.length < index + limit) (item : Item) :
    dropOldest pinned (retained limit pinned items ++ [item]) =
      retained limit pinned (items ++ [item]) := by
  have bound : items.length - limit < items.length := by omega
  have plain : ¬ pinned items[items.length - limit] = true := by
    intro isPinned
    cases found : items.findIdx? pinned with
    | none =>
        have unpinned := List.findIdx?_eq_none_iff.mp found _
          (List.getElem_mem bound)
        rw [unpinned] at isPinned
        cases isPinned
    | some index =>
        obtain ⟨_, _, before⟩ := List.findIdx?_eq_some_iff_getElem.mp found
        have behind := near index found
        exact before (items.length - limit) (by omega) isPinned
  have here : ∀ index, items.findIdx? pinned = some index →
      items.length ≤ index + limit := by
    intro index found
    exact Nat.le_of_lt (near index found)
  have there : ∀ index, (items ++ [item]).findIdx? pinned = some index →
      (items ++ [item]).length ≤ index + limit := by
    intro index found
    rw [List.length_append, List.length_singleton]
    cases earlier : items.findIdx? pinned with
    | some known =>
        rw [findIdx?_concat_some earlier] at found
        cases found
        exact near index earlier
    | none =>
        rw [List.findIdx?_append, earlier, Option.none_or] at found
        obtain ⟨offset, -, rfl⟩ := Option.map_eq_some_iff.mp found
        omega
  rw [retained_newest here, retained_newest there, newest_cons positive full,
    dropOldest_plain plain]
  have concat : newest (limit - 1 + 1) (items ++ [item]) =
      newest (limit - 1) items ++ [item] :=
    newest_concat (by omega) item
  rw [Nat.sub_add_cancel positive] at concat
  exact concat.symm

/-- Keeping the history bounded item by item keeps what is retained. -/
theorem retained_concat (positive : 0 < limit)
    (full : limit ≤ items.length) (item : Item) :
    dropOldest pinned (retained limit pinned items ++ [item]) =
      retained limit pinned (items ++ [item]) := by
  by_cases near : ∀ index, items.findIdx? pinned = some index →
      items.length < index + limit
  · exact dropOldest_retained_near positive full near item
  · have exists' : ∃ index, items.findIdx? pinned = some index ∧
        index + limit ≤ items.length := by
      by_contra absent
      apply near
      intro index found
      by_contra behind
      exact absent ⟨index, found, by omega⟩
    obtain ⟨index, found, old⟩ := exists'
    have bound := findIdx?_lt found
    obtain ⟨_, isPinned, _⟩ := List.findIdx?_eq_some_iff_getElem.mp found
    have kept : retained limit pinned items =
        items[index] :: newest (limit - 1) items := by
      rcases Nat.lt_or_eq_of_le old with far | edge
      · exact retained_far bound found far
      · have here : items.length - limit = index := by omega
        rw [retained_newest, newest_cons positive full]
        · simp only [here]
        · intro other foundOther
          rw [found] at foundOther
          cases foundOther
          exact Nat.le_of_eq edge.symm
    have grown : (items ++ [item]).length = items.length + 1 := by
      rw [List.length_append, List.length_singleton]
    have boundAfter : index < (items ++ [item]).length := by omega
    rw [kept, dropOldest_pinned isPinned,
      newest_concat_tail (by omega),
      retained_far boundAfter (findIdx?_concat_some found item) (by omega),
      List.getElem_append_left bound]

end Motrix.Lib
