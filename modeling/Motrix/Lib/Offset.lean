import Mathlib.Data.List.Basic

/-!
# Offsets into weighted lists

A string is a list whose elements have widths, and an offset counts the widths
of what stands before it.  With width one this is an index; with the byte
widths of characters it is the offset of a byte string.
-/

namespace Motrix.Lib.Offset

/-- Count down from a start to the first position that may be a stop. -/
def countDown (stop : Nat → Bool) : Nat → Nat
  | 0 => 0
  | position + 1 =>
      if stop (position + 1) then position + 1 else countDown stop position

theorem countDown_eq {stop : Nat → Bool} {bound start : Nat}
    (below : bound ≤ start) (stops : bound = 0 ∨ stop bound = true)
    (passes : ∀ position, bound < position → position ≤ start →
      stop position = false) :
    countDown stop start = bound := by
  induction start with
  | zero => exact (Nat.le_zero.mp below).symm
  | succ start induction =>
      by_cases here : bound = start + 1
      · subst here
        have stopped : stop (start + 1) = true :=
          stops.resolve_left (Nat.succ_ne_zero start)
        rw [countDown, if_pos stopped]
      · have lower : bound ≤ start := by omega
        have passed := passes (start + 1) (by omega) (Nat.le_refl _)
        rw [countDown, if_neg (by rw [passed]; exact Bool.false_ne_true)]
        apply induction lower
        intro position after within
        exact passes position after (Nat.le_succ_of_le within)

section Weighted

variable {Element : Type} (width : Element → Nat)

/-- The offset of the end of a list. -/
def size : List Element → Nat
  | [] => 0
  | head :: rest => width head + size rest

/-- The two sides of an offset, if it falls between two elements. -/
def split : List Element → Nat → Option (List Element × List Element)
  | list, 0 => some ([], list)
  | [], _ + 1 => none
  | head :: rest, offset + 1 =>
      if offset + 1 < width head then
        none
      else
        (split rest (offset + 1 - width head)).map fun sides =>
          (head :: sides.1, sides.2)

/-- The longest run of leading elements that is at most `most` wide. -/
def fit : Nat → List Element → List Element
  | _, [] => []
  | most, head :: rest =>
      if width head ≤ most then
        head :: fit (most - width head) rest
      else
        []

@[simp] theorem size_nil : size width [] = 0 :=
  rfl

@[simp] theorem size_cons (head : Element) (rest : List Element) :
    size width (head :: rest) = width head + size width rest :=
  rfl

@[simp] theorem size_append (front back : List Element) :
    size width (front ++ back) = size width front + size width back := by
  induction front with
  | nil => rw [List.nil_append, size_nil, Nat.zero_add]
  | cons head front induction =>
      rw [List.cons_append, size_cons, size_cons, induction, Nat.add_assoc]

theorem size_map {Other : Type} (image : Other → Element)
    (list : List Other) :
    size width (list.map image) = size (fun other => width (image other)) list := by
  induction list with
  | nil => rfl
  | cons head rest induction =>
      rw [List.map_cons, size_cons, induction, size_cons]

theorem size_one (list : List Element) :
    size (fun _ => 1) list = list.length := by
  induction list with
  | nil => rfl
  | cons head rest induction =>
      rw [size_cons, induction, List.length_cons, Nat.add_comm]

variable {width}

theorem split_size (positive : ∀ element, 0 < width element)
    (front back : List Element) :
    split width (front ++ back) (size width front) = some (front, back) := by
  induction front with
  | nil =>
      cases back with
      | nil => rfl
      | cons head rest => rfl
  | cons head front induction =>
      obtain ⟨offset, same⟩ : ∃ offset,
          size width (head :: front) = offset + 1 := by
        apply Nat.exists_eq_add_one.mpr
        rw [size_cons]
        exact Nat.lt_of_lt_of_le (positive head) (Nat.le_add_right _ _)
      have wide : ¬ offset + 1 < width head := by
        rw [← same, size_cons]
        omega
      have remaining : offset + 1 - width head = size width front := by
        rw [← same, size_cons]
        omega
      rw [same, List.cons_append, split, if_neg wide, remaining, induction]
      rfl

/-- No offset inside an element is between two elements. -/
theorem split_inside {front : List Element} {next : Element}
    (rest : List Element) {offset : Nat} (after : size width front < offset)
    (before : offset < size width front + width next) :
    split width (front ++ next :: rest) offset = none := by
  induction front generalizing offset with
  | nil =>
      obtain ⟨position, rfl⟩ := Nat.exists_eq_add_one.mpr
        (Nat.lt_of_le_of_lt (Nat.zero_le _) after)
      rw [size_nil] at before
      rw [List.nil_append, split, if_pos (by omega)]
  | cons head front induction =>
      obtain ⟨position, rfl⟩ := Nat.exists_eq_add_one.mpr
        (Nat.lt_of_le_of_lt (Nat.zero_le _) after)
      rw [size_cons] at after before
      rw [List.cons_append, split, if_neg (by omega),
        induction (by omega) (by omega)]
      rfl

theorem size_pos (positive : ∀ element, 0 < width element)
    {list : List Element} : 0 < size width list ↔ 0 < list.length := by
  cases list with
  | nil => rfl
  | cons head rest =>
      have wide := positive head
      rw [size_cons, List.length_cons]
      omega

variable (width) in
theorem fit_spec (most : Nat) (list : List Element) :
    size width (fit width most list) ≤ most ∧
      ∃ back, list = fit width most list ++ back ∧
        ∀ next rest, back = next :: rest →
          most < size width (fit width most list) + width next := by
  induction list generalizing most with
  | nil =>
      refine ⟨Nat.zero_le _, [], rfl, ?_⟩
      intro next rest impossible
      cases impossible
  | cons head list induction =>
      rw [fit]
      by_cases fits : width head ≤ most
      · obtain ⟨within, back, parts, full⟩ :=
          induction (most - width head)
        rw [if_pos fits, size_cons]
        refine ⟨by omega, back, congrArg (head :: ·) parts, ?_⟩
        intro next rest same
        have beyond := full next rest same
        omega
      · rw [if_neg fits]
        refine ⟨Nat.zero_le _, head :: list, rfl, ?_⟩
        rintro next rest same
        obtain ⟨rfl, _⟩ := List.cons.inj same
        rw [size_nil]
        omega

theorem fit_of_size_le {most : Nat} {list : List Element}
    (within : size width list ≤ most) : fit width most list = list := by
  induction list generalizing most with
  | nil => rfl
  | cons head rest induction =>
      rw [size_cons] at within
      rw [fit, if_pos (by omega)]
      exact congrArg (head :: ·) (induction (by omega))

end Weighted

/-- A list with an element in it is cut at its last occurrence. -/
theorem eq_append_last {Element : Type} {target : Element}
    {list : List Element} (member : target ∈ list) :
    ∃ front back, list = front ++ target :: back ∧ target ∉ back := by
  obtain ⟨back, front, same, absent⟩ :=
    List.eq_append_cons_of_mem (List.mem_reverse.mpr member)
  refine ⟨front.reverse, back.reverse, ?_, ?_⟩
  · have turned := congrArg List.reverse same
    simpa using turned
  · rwa [List.mem_reverse]

section Search

variable {Element : Type} [DecidableEq Element] (width : Element → Nat)
  (target : Element)

def firstOffset : List Element → Option Nat
  | [] => none
  | head :: rest =>
      if head = target then
        some 0
      else
        (firstOffset rest).map (· + width head)

def lastOffset : List Element → Option Nat
  | [] => none
  | head :: rest =>
      match lastOffset rest with
      | some offset => some (offset + width head)
      | none => if head = target then some 0 else none

variable {target}

theorem firstOffset_none {list : List Element} (absent : target ∉ list) :
    firstOffset width target list = none := by
  induction list with
  | nil => rfl
  | cons head rest induction =>
      obtain ⟨other, tail⟩ :=
        List.ne_and_not_mem_of_not_mem_cons absent
      rw [firstOffset, if_neg (Ne.symm other), induction tail]
      rfl

theorem firstOffset_append {front : List Element} (absent : target ∉ front)
    (back : List Element) :
    firstOffset width target (front ++ target :: back) =
      some (size width front) := by
  induction front with
  | nil => exact if_pos rfl
  | cons head front induction =>
      obtain ⟨other, tail⟩ :=
        List.ne_and_not_mem_of_not_mem_cons absent
      rw [List.cons_append, firstOffset, if_neg (Ne.symm other),
        induction tail, size_cons, Nat.add_comm]
      rfl

theorem lastOffset_none {list : List Element} (absent : target ∉ list) :
    lastOffset width target list = none := by
  induction list with
  | nil => rfl
  | cons head rest induction =>
      obtain ⟨other, tail⟩ :=
        List.ne_and_not_mem_of_not_mem_cons absent
      rw [lastOffset, induction tail]
      exact if_neg (Ne.symm other)

theorem lastOffset_append (front : List Element) {back : List Element}
    (absent : target ∉ back) :
    lastOffset width target (front ++ target :: back) =
      some (size width front) := by
  induction front with
  | nil =>
      rw [List.nil_append, lastOffset, lastOffset_none width absent]
      exact if_pos rfl
  | cons head front induction =>
      rw [List.cons_append, lastOffset, induction, size_cons, Nat.add_comm]

end Search

end Motrix.Lib.Offset
