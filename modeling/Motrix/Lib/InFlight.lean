import Mathlib.Algebra.Order.Group.Multiset
import Mathlib.Data.Multiset.Range
import Mathlib.Tactic.Abel

/-!
# Items in flight

Operations that are under way, each of which may hold an item.  Starting,
continuing and ending an operation at a place of the list adds and takes away
what it holds, and nothing else.
-/

namespace Motrix.Lib

/-! ## The operation at a place -/

section Places

variable {Operation : Type} {operations : List Operation}
  {index other : Nat} {operation new : Operation}

theorem getElem?_set_cases
    (found : (operations.set index new)[other]? = some operation) :
    (other = index ∧ operation = new) ∨
      (other ≠ index ∧ operations[other]? = some operation) := by
  by_cases same : other = index
  · subst same
    have inside := (List.getElem?_eq_some_iff.mp found).1
    rw [List.length_set] at inside
    rw [List.getElem?_set_self inside] at found
    exact Or.inl ⟨rfl, (Option.some.inj found).symm⟩
  · rw [List.getElem?_set_ne (Ne.symm same)] at found
    exact Or.inr ⟨same, found⟩

theorem getElem?_concat_cases
    (found : (operations ++ [new])[index]? = some operation) :
    (index = operations.length ∧ operation = new) ∨
      operations[index]? = some operation := by
  rcases Nat.lt_trichotomy index operations.length with old | rfl | out
  · rw [List.getElem?_append_left old] at found
    exact Or.inr found
  · rw [List.getElem?_concat_length] at found
    exact Or.inl ⟨rfl, (Option.some.inj found).symm⟩
  · rw [List.getElem?_eq_none (by simp; omega)] at found
    cases found

theorem getElem?_set_found (found : operations[index]? = some operation)
    (new : Operation) : (operations.set index new)[index]? = some new :=
  List.getElem?_set_self (List.getElem?_eq_some_iff.mp found).1

theorem getElem?_set_apart (apart : other ≠ index)
    (found : operations[other]? = some operation) (new : Operation) :
    (operations.set index new)[other]? = some operation :=
  (List.getElem?_set_ne (Ne.symm apart)).trans found

end Places

/-! ## What is held -/

variable {Operation Item : Type} (owner : Operation → Option Item)

def own (operation : Operation) : Multiset Item :=
  (owner operation).toList

/-- The items that operations hold, with their number. -/
def held (operations : List Operation) : Multiset Item :=
  operations.filterMap owner

theorem held_nil : held owner [] = 0 :=
  rfl

theorem held_cons (operation : Operation) (operations : List Operation) :
    held owner (operation :: operations) =
      own owner operation + held owner operations := by
  unfold held own
  cases item : owner operation with
  | none =>
      rw [List.filterMap_cons_none item]
      exact (zero_add _).symm
  | some value =>
      rw [List.filterMap_cons_some item]
      rfl

theorem held_append (first last : List Operation) :
    held owner (first ++ last) = held owner first + held owner last := by
  unfold held
  rw [List.filterMap_append]
  rfl

theorem held_concat (operations : List Operation) (operation : Operation) :
    held owner (operations ++ [operation]) =
      held owner operations + own owner operation := by
  rw [held_append, held_cons, held_nil, add_zero]

/-- An operation that ends gives its item back. -/
theorem held_eraseIdx {operations : List Operation} {index : Nat}
    {operation : Operation} (found : operations[index]? = some operation) :
    held owner (operations.eraseIdx index) + own owner operation =
      held owner operations := by
  induction operations generalizing index with
  | nil => cases found
  | cons first rest induction =>
      cases index with
      | zero =>
          cases found
          rw [List.eraseIdx_cons_zero, held_cons, add_comm]
      | succ index =>
          have inner := induction found
          rw [List.eraseIdx_cons_succ, held_cons, held_cons, add_assoc, inner]

/-- An operation that goes on swaps what it holds. -/
theorem held_set {operations : List Operation} {index : Nat}
    {operation : Operation} (found : operations[index]? = some operation)
    (next : Operation) :
    held owner (operations.set index next) + own owner operation =
      held owner operations + own owner next := by
  induction operations generalizing index with
  | nil => cases found
  | cons first rest induction =>
      cases index with
      | zero =>
          cases found
          rw [List.set_cons_zero, held_cons, held_cons]
          abel
      | succ index =>
          have inner := induction found
          rw [List.set_cons_succ, held_cons, held_cons, add_assoc, inner,
            add_assoc]

theorem held_set_same {operations : List Operation} {index : Nat}
    {operation : Operation} (found : operations[index]? = some operation)
    {next : Operation} (same : owner next = owner operation) :
    held owner (operations.set index next) = held owner operations := by
  have swapped := held_set owner found next
  have items : own owner next = own owner operation := by
    unfold own
    rw [same]
  rw [items] at swapped
  exact add_right_cancel swapped

theorem held_sublist {fewer operations : List Operation}
    (sublist : fewer.Sublist operations) :
    held owner fewer ≤ held owner operations :=
  Multiset.coe_le.mpr (sublist.filterMap owner).subperm

/-- Dropping all entries like the one that was found gives its item back. -/
theorem held_filter {mark : Operation → Bool} {operations : List Operation}
    {operation : Operation}
    (found : operations.find? mark = some operation) :
    held owner (operations.filter fun other => !mark other) +
      own owner operation ≤ held owner operations := by
  induction operations with
  | nil => cases found
  | cons first rest induction =>
      cases marked : mark first with
      | true =>
          rw [List.find?_cons_of_pos marked] at found
          cases found
          rw [List.filter_cons_of_neg (by rw [marked]; decide), held_cons,
            add_comm]
          exact add_le_add_right (held_sublist owner List.filter_sublist) _
      | false =>
          rw [List.find?_cons_of_neg (by rw [marked]; decide)] at found
          rw [List.filter_cons_of_pos (by rw [marked]; rfl), held_cons,
            held_cons, add_assoc]
          exact add_le_add_right (induction found) _

/-- Entries of different keys are dropped one by one. -/
theorem held_filter_key {Key : Type} [DecidableEq Key]
    (key : Operation → Key) {chosen : Key} {operations : List Operation}
    {operation : Operation} (distinct : (operations.map key).Nodup)
    (found : operations.find? (fun entry => key entry == chosen) =
      some operation) :
    held owner (operations.filter fun entry => key entry != chosen) +
      own owner operation = held owner operations := by
  induction operations with
  | nil => cases found
  | cons first rest induction =>
      obtain ⟨absent, others⟩ := List.nodup_cons.mp distinct
      by_cases same : key first = chosen
      · rw [List.find?_cons_of_pos (by simpa using same)] at found
        cases found
        have kept : rest.filter (fun entry => key entry != chosen) = rest := by
          apply List.filter_eq_self.mpr
          intro other member
          apply bne_iff_ne.mpr
          rintro rfl
          exact absent (same ▸ List.mem_map_of_mem member)
        rw [List.filter_cons_of_neg (by simpa using same), kept, held_cons,
          add_comm]
      · rw [List.find?_cons_of_neg (by simpa using same)] at found
        rw [List.filter_cons_of_pos (by simpa using same), held_cons,
          held_cons, add_assoc, induction others found]

/-- Different items below a bound are all of them when there are that many. -/
theorem mem_of_card {items : Multiset Nat} {bound : Nat}
    (distinct : items.Nodup) (below : ∀ item ∈ items, item < bound)
    (all : bound ≤ items.card) {item : Nat} (small : item < bound) :
    item ∈ items := by
  have subset : items ≤ Multiset.range bound := by
    apply (Multiset.le_iff_subset distinct).mpr
    intro member present
    exact Multiset.mem_range.mpr (below member present)
  have equal : items = Multiset.range bound := by
    apply Multiset.eq_of_le_of_card_le subset
    rw [Multiset.card_range]
    exact all
  rw [equal]
  exact Multiset.mem_range.mpr small

end Motrix.Lib
