import Mathlib.Algebra.Group.Basic
import Mathlib.Data.List.Nodup
import Mathlib.Logic.Relation
import Mathlib.Tactic.Abel

/-!
# Keyed tables

A table is a list of rows with distinct keys.  Rows are rewritten in place,
removed and appended.  The total of a weight over the table, the rows a table
derives from and the rows it keeps are followed through each of the three.
-/

namespace Motrix.Lib.Table

open Relation (ReflTransGen)

variable {Row Key Weight : Type} {key : Row → Key} {rows : List Row}

def Distinct (key : Row → Key) (rows : List Row) : Prop :=
  (rows.map key).Nodup

def rewrite (chosen : Row → Bool) (change : Row → Row) (rows : List Row) :
    List Row :=
  rows.map fun row => if chosen row then change row else row

def remove [DecidableEq Key] (key : Row → Key) (old : Key) (rows : List Row) :
    List Row :=
  rows.filter fun row => decide (key row ≠ old)

def total [Zero Weight] [Add Weight] (weight : Row → Weight) :
    List Row → Weight
  | [] => 0
  | row :: rest => weight row + total weight rest

/-! ## Keys -/

theorem Distinct.eq (distinct : Distinct key rows) {row other : Row}
    (inside : row ∈ rows) (among : other ∈ rows)
    (same : key row = key other) : row = other :=
  List.inj_on_of_nodup_map distinct inside among same

theorem rewrite_keys {chosen : Row → Bool} {change : Row → Row}
    (keeps : ∀ row, key (change row) = key row) :
    (rewrite chosen change rows).map key = rows.map key := by
  unfold rewrite
  rw [List.map_map]
  apply List.map_congr_left
  intro row _
  show key (if chosen row then change row else row) = key row
  split
  · exact keeps row
  · rfl

theorem Distinct.rewrite (distinct : Distinct key rows)
    {chosen : Row → Bool} {change : Row → Row}
    (keeps : ∀ row, key (change row) = key row) :
    Distinct key (rewrite chosen change rows) := by
  unfold Distinct
  rw [rewrite_keys keeps]
  exact distinct

theorem Distinct.remove [DecidableEq Key] (distinct : Distinct key rows)
    (old : Key) : Distinct key (remove key old rows) :=
  distinct.sublist (List.filter_sublist.map key)

theorem Distinct.concat (distinct : Distinct key rows) {row : Row}
    (fresh : ∀ other ∈ rows, key other ≠ key row) :
    Distinct key (rows ++ [row]) := by
  unfold Distinct
  rw [List.map_append]
  refine List.Nodup.append distinct (List.nodup_singleton _) ?_
  intro shared old new
  obtain ⟨other, inside, rfl⟩ := List.mem_map.mp old
  exact fresh other inside (List.mem_singleton.mp new)

theorem mem_rewrite {chosen : Row → Bool} {change : Row → Row} {found : Row} :
    found ∈ rewrite chosen change rows ↔
      ∃ row ∈ rows, (if chosen row then change row else row) = found :=
  List.mem_map

/-- A row of the rewritten table has been changed or was not chosen. -/
theorem of_mem_rewrite {chosen : Row → Bool} {change : Row → Row}
    {found : Row} (inside : found ∈ rewrite chosen change rows) :
    (∃ row ∈ rows, chosen row = true ∧ change row = found) ∨
      (found ∈ rows ∧ chosen found = false) := by
  obtain ⟨row, there, changed⟩ := mem_rewrite.mp inside
  cases isChosen : chosen row with
  | true =>
      rw [if_pos isChosen] at changed
      exact Or.inl ⟨row, there, isChosen, changed⟩
  | false =>
      rw [if_neg (isChosen ▸ Bool.false_ne_true)] at changed
      rw [changed] at there isChosen
      exact Or.inr ⟨there, isChosen⟩

theorem mem_remove [DecidableEq Key] {old : Key} {row : Row} :
    row ∈ remove key old rows ↔ row ∈ rows ∧ key row ≠ old := by
  unfold remove
  rw [List.mem_filter, decide_eq_true_iff]

theorem remove_length [DecidableEq Key] {row : Row} (inside : row ∈ rows) :
    (remove key (key row) rows).length < rows.length := by
  apply List.length_filter_lt_length_iff_exists.mpr
  exact ⟨row, inside, by simp⟩

/-- A row is found by a condition that no other key meets. -/
theorem filter_only (distinct : Distinct key rows) {chosen : Row → Bool}
    {row : Row} (inside : row ∈ rows) (isChosen : chosen row = true)
    (only : ∀ other ∈ rows, chosen other = true → key other = key row) :
    rows.filter chosen = [row] := by
  induction rows with
  | nil => cases inside
  | cons first rest induction =>
      obtain ⟨fresh, distinct'⟩ := List.nodup_cons.mp distinct
      rcases List.mem_cons.mp inside with rfl | later
      · have apart : rest.filter chosen = [] := by
          rw [List.filter_eq_nil_iff]
          intro other among hit
          have same := only other (List.mem_cons_of_mem _ among) hit
          exact fresh (List.mem_map.mpr ⟨other, among, same⟩)
        rw [List.filter_cons_of_pos isChosen, apart]
      · have unchosen : ¬chosen first = true := by
          intro hit
          have same := only first List.mem_cons_self hit
          exact fresh (List.mem_map.mpr ⟨row, later, same.symm⟩)
        rw [List.filter_cons_of_neg unchosen]
        exact induction distinct' later fun other among =>
          only other (List.mem_cons_of_mem _ among)

/-- A row stands at one place, and only there. -/
theorem Distinct.split [DecidableEq Key] (distinct : Distinct key rows)
    {row : Row} (inside : row ∈ rows) : ∃ front back,
      rows = front ++ row :: back ∧
      Table.remove key (key row) rows = front ++ back ∧
      ∀ change : Row → Row,
        Table.rewrite (fun other => decide (key other = key row)) change rows =
          front ++ change row :: back := by
  obtain ⟨front, back, rfl⟩ := List.mem_iff_append.mp inside
  have keys : (front.map key ++ key row :: back.map key).Nodup := by
    simpa [Distinct] using distinct
  have before : ∀ other ∈ front, key other ≠ key row := by
    intro other member same
    apply (List.nodup_append.mp keys).2.2 (key other)
      (List.mem_map_of_mem member) (key row) List.mem_cons_self same
  have after : ∀ other ∈ back, key other ≠ key row := by
    intro other member same
    have rest := (List.nodup_cons.mp (List.nodup_append.mp keys).2.1).1
    exact rest (same ▸ List.mem_map_of_mem member)
  refine ⟨front, back, rfl, ?_, fun change => ?_⟩
  · unfold Table.remove
    rw [List.filter_append, List.filter_cons_of_neg (by simp),
      List.filter_eq_self.mpr fun other member =>
        decide_eq_true (before other member),
      List.filter_eq_self.mpr fun other member =>
        decide_eq_true (after other member)]
  · have same : ∀ others : List Row,
        (∀ other ∈ others, key other ≠ key row) →
          Table.rewrite (fun other => decide (key other = key row)) change
            others = others := by
      intro others apart
      refine (List.map_congr_left fun other member => ?_).trans
        (List.map_id others)
      exact if_neg (by simpa using apart other member)
    unfold Table.rewrite at same ⊢
    rw [List.map_append, List.map_cons, same front before, same back after,
      if_pos (decide_eq_true rfl)]

/-! ## Totals -/

theorem total_append [AddMonoid Weight] {weight : Row → Weight}
    (first last : List Row) :
    total weight (first ++ last) = total weight first + total weight last := by
  induction first with
  | nil => exact (zero_add _).symm
  | cons row rest induction =>
      show weight row + total weight (rest ++ last) = _
      rw [induction, ← add_assoc]
      rfl

theorem total_rewrite_same [AddMonoid Weight] {weight : Row → Weight}
    {chosen : Row → Bool} {change : Row → Row}
    (same : ∀ row ∈ rows, chosen row = true →
      weight (change row) = weight row) :
    total weight (rewrite chosen change rows) = total weight rows := by
  induction rows with
  | nil => rfl
  | cons row rest induction =>
      have rest' := induction fun other inside =>
        same other (List.mem_cons_of_mem _ inside)
      have first : weight (if chosen row then change row else row) =
          weight row := by
        split
        · rename_i isChosen
          exact same row List.mem_cons_self isChosen
        · rfl
      show weight (if chosen row then change row else row) +
        total weight (rewrite chosen change rest) = _
      rw [first, rest']
      rfl

theorem rewrite_none {chosen : Row → Bool} {change : Row → Row}
    (apart : ∀ row ∈ rows, chosen row = false) :
    rewrite chosen change rows = rows := by
  have same : ∀ row ∈ rows,
      (if chosen row then change row else row) = id row := by
    intro row inside
    rw [apart row inside]
    rfl
  unfold rewrite
  rw [List.map_congr_left same, List.map_id]

/-- Rewriting one row exchanges its weight. -/
theorem total_rewrite [AddCommGroup Weight] {weight : Row → Weight}
    (distinct : Distinct key rows) {chosen : Row → Bool} {change : Row → Row}
    {row : Row} (inside : row ∈ rows) (isChosen : chosen row = true)
    (only : ∀ other ∈ rows, chosen other = true → key other = key row) :
    total weight (rewrite chosen change rows) =
      total weight rows - weight row + weight (change row) := by
  induction rows with
  | nil => cases inside
  | cons first rest induction =>
      obtain ⟨fresh, distinct'⟩ := List.nodup_cons.mp distinct
      show weight (if chosen first then change first else first) +
          total weight (rewrite chosen change rest) =
        weight first + total weight rest - weight row + weight (change row)
      rcases List.mem_cons.mp inside with rfl | later
      · have apart : ∀ other ∈ rest, chosen other = false := by
          intro other among
          rw [← Bool.not_eq_true]
          intro hit
          have same := only other (List.mem_cons_of_mem _ among) hit
          exact fresh (List.mem_map.mpr ⟨other, among, same⟩)
        rw [if_pos isChosen, rewrite_none apart]
        abel
      · have unchosen : chosen first = false := by
          rw [← Bool.not_eq_true]
          intro hit
          have same := only first List.mem_cons_self hit
          exact fresh (List.mem_map.mpr ⟨row, later, same.symm⟩)
        have rest' := induction distinct' later fun other among =>
          only other (List.mem_cons_of_mem _ among)
        rw [rest', unchosen]
        show weight first + _ = _
        abel

/-- Removing a row takes its weight away. -/
theorem total_remove [DecidableEq Key] [AddCommGroup Weight]
    {weight : Row → Weight} (distinct : Distinct key rows) {row : Row}
    (inside : row ∈ rows) :
    total weight (remove key (key row) rows) =
      total weight rows - weight row := by
  induction rows with
  | nil => cases inside
  | cons first rest induction =>
      obtain ⟨fresh, distinct'⟩ := List.nodup_cons.mp distinct
      rcases List.mem_cons.mp inside with rfl | later
      · have gone : remove key (key row) (row :: rest) = rest := by
          unfold remove
          rw [List.filter_cons_of_neg (by simp), List.filter_eq_self]
          intro other among
          rw [decide_eq_true_iff]
          intro same
          exact fresh (List.mem_map.mpr ⟨other, among, same⟩)
        rw [gone]
        show _ = weight row + total weight rest - weight row
        abel
      · have apart : key first ≠ key row := by
          intro same
          exact fresh (List.mem_map.mpr ⟨row, later, same.symm⟩)
        have stays : remove key (key row) (first :: rest) =
            first :: remove key (key row) rest :=
          List.filter_cons_of_pos (decide_eq_true apart)
        rw [stays]
        show weight first + total weight (remove key (key row) rest) =
          weight first + total weight rest - weight row
        rw [induction distinct' later]
        abel

/-! ## Where rows come from -/

/-- Every row of the second table comes from one of the first by steps. -/
def Derives (step : Row → Row → Prop) (before after : List Row) : Prop :=
  ∀ found ∈ after, ∃ row ∈ before, ReflTransGen step row found

namespace Derives

variable {step : Row → Row → Prop} {before between after : List Row}

theorem trans (first : Derives step before between)
    (second : Derives step between after) : Derives step before after := by
  intro found inside
  obtain ⟨middle, among, later⟩ := second found inside
  obtain ⟨row, start, earlier⟩ := first middle among
  exact ⟨row, start, earlier.trans later⟩

theorem rewrite {chosen : Row → Bool} {change : Row → Row}
    (steps : ∀ row ∈ rows, chosen row = true → step row (change row)) :
    Derives step rows (rewrite chosen change rows) := by
  intro found inside
  obtain ⟨row, start, rfl⟩ := mem_rewrite.mp inside
  refine ⟨row, start, ?_⟩
  split
  · rename_i isChosen
    exact ReflTransGen.single (steps row start isChosen)
  · exact ReflTransGen.refl

end Derives

end Motrix.Lib.Table
