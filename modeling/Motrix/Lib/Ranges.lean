import Mathlib.Data.List.Basic

/-!
# Ranges of numbers

Ranges, each from its first to its last number, are listed in order and do not
touch.  A range that begins where the last one ends, or right behind it, makes
the last one longer.
-/

namespace Motrix.Lib.Ranges

def push (range : Nat × Nat) : List (Nat × Nat) → List (Nat × Nat)
  | [] => [range]
  | [last] =>
      if range.1 ≤ last.2 + 1 then [(last.1, range.2)] else [last, range]
  | first :: next :: rest => first :: push range (next :: rest)

/-- All numbers of the ranges, in order. -/
def numbers (ranges : List (Nat × Nat)) : List Nat :=
  ranges.flatMap fun range => List.range' range.1 (range.2 + 1 - range.1)

structure Ordered (ranges : List (Nat × Nat)) : Prop where
  filled : ∀ range ∈ ranges, range.1 ≤ range.2
  apart : ranges.Pairwise fun left right => left.2 < right.1

variable {ranges : List (Nat × Nat)} {range : Nat × Nat} {bound number : Nat}

theorem mem_numbers :
    number ∈ numbers ranges ↔
      ∃ range ∈ ranges, range.1 ≤ number ∧ number ≤ range.2 := by
  simp only [numbers, List.mem_flatMap, List.mem_range'_1]
  constructor
  · rintro ⟨range, member, lower, upper⟩
    exact ⟨range, member, lower, by omega⟩
  · rintro ⟨range, member, lower, upper⟩
    exact ⟨range, member, lower, by omega⟩

theorem mem_numbers_cons :
    number ∈ numbers (range :: ranges) ↔
      (range.1 ≤ number ∧ number ≤ range.2) ∨ number ∈ numbers ranges := by
  simp only [mem_numbers, List.mem_cons, or_and_right, exists_or,
    exists_eq_left]

/-- Every number is listed once. -/
theorem Ordered.numbers (ordered : Ordered ranges) :
    (numbers ranges).Pairwise (· < ·) := by
  obtain ⟨filled, apart⟩ := ordered
  induction ranges with
  | nil => exact List.Pairwise.nil
  | cons first rest induction =>
      obtain ⟨here, apart⟩ := List.pairwise_cons.mp apart
      have later := induction
        (fun range member => filled range (List.mem_cons_of_mem _ member)) apart
      rw [Ranges.numbers, List.flatMap_cons, List.pairwise_append]
      refine ⟨List.pairwise_lt_range', later, ?_⟩
      intro left inside right behind
      obtain ⟨range, member, lower, -⟩ := mem_numbers.mp behind
      have below := List.mem_range'_1.mp inside
      have next := here range member
      omega

theorem numbers_length :
    (numbers ranges).length =
      ranges.foldl (fun count range => count + (range.2 + 1 - range.1)) 0 := by
  have total : ∀ start, ranges.foldl
      (fun count range => count + (range.2 + 1 - range.1)) start =
        start + (numbers ranges).length := by
    induction ranges with
    | nil => exact fun start => rfl
    | cons first rest induction =>
        intro start
        rw [List.foldl_cons, induction, numbers, numbers, List.flatMap_cons,
          List.length_append, List.length_range']
        omega
  rw [total, Nat.zero_add]

/-- What a range behind all others adds. -/
theorem mem_push (filled : range.1 ≤ range.2)
    (behind : ∀ other ∈ ranges, other.1 ≤ other.2 ∧ other.2 ≤ range.1) :
    number ∈ numbers (push range ranges) ↔
      number ∈ numbers ranges ∨ range.1 ≤ number ∧ number ≤ range.2 := by
  induction ranges with
  | nil => simp [push, mem_numbers]
  | cons first rest induction =>
      cases rest with
      | nil =>
          have here := behind first List.mem_cons_self
          unfold push
          split
          · next touches =>
              simp only [mem_numbers, List.mem_singleton, exists_eq_left]
              omega
          · simp [mem_numbers]
      | cons next rest =>
          have later := induction fun other member =>
            behind other (List.mem_cons_of_mem _ member)
          unfold push
          rw [mem_numbers_cons, later, ← or_assoc, ← mem_numbers_cons]

theorem push_bound (most : range.2 ≤ bound)
    (behind : ∀ other ∈ ranges, other.2 ≤ bound) :
    ∀ other ∈ push range ranges, other.2 ≤ bound := by
  induction ranges with
  | nil => simpa [push] using most
  | cons first rest induction =>
      cases rest with
      | nil =>
          unfold push
          split
          · simpa using most
          · simpa using ⟨behind first List.mem_cons_self, most⟩
      | cons next rest =>
          unfold push
          rw [List.forall_mem_cons]
          exact ⟨behind first List.mem_cons_self, induction fun other member =>
            behind other (List.mem_cons_of_mem _ member)⟩

theorem push_above {least : Nat} (low : least < range.1)
    (above : ∀ other ∈ ranges, least < other.1) :
    ∀ other ∈ push range ranges, least < other.1 := by
  induction ranges with
  | nil => simpa [push] using low
  | cons first rest induction =>
      cases rest with
      | nil =>
          have here := above first List.mem_cons_self
          unfold push
          split
          · simpa using here
          · simpa using ⟨here, low⟩
      | cons next rest =>
          unfold push
          rw [List.forall_mem_cons]
          exact ⟨above first List.mem_cons_self, induction fun other member =>
            above other (List.mem_cons_of_mem _ member)⟩

theorem Ordered.push (ordered : Ordered ranges) (filled : range.1 ≤ range.2)
    (behind : ∀ other ∈ ranges, other.2 ≤ range.1) :
    Ordered (push range ranges) := by
  induction ranges with
  | nil =>
      exact ⟨by simpa [Ranges.push] using filled, by simp [Ranges.push]⟩
  | cons first rest induction =>
      cases rest with
      | nil =>
          have here := ordered.filled first List.mem_cons_self
          have end' := behind first List.mem_cons_self
          unfold Ranges.push
          split
          · exact ⟨by simp; omega, by simp⟩
          · exact ⟨by simp; omega, by simp; omega⟩
      | cons next rest =>
          obtain ⟨apart, others⟩ := List.pairwise_cons.mp ordered.apart
          have later := induction
            ⟨fun other member =>
              ordered.filled other (List.mem_cons_of_mem _ member), others⟩
            fun other member => behind other (List.mem_cons_of_mem _ member)
          have gap := apart next List.mem_cons_self
          have room := ordered.filled next
            (List.mem_cons_of_mem _ List.mem_cons_self)
          have end' := behind next (List.mem_cons_of_mem _ List.mem_cons_self)
          unfold Ranges.push
          refine ⟨List.forall_mem_cons.mpr
            ⟨ordered.filled first List.mem_cons_self, later.filled⟩, ?_⟩
          rw [List.pairwise_cons]
          exact ⟨push_above (by omega) apart, later.apart⟩

end Motrix.Lib.Ranges
