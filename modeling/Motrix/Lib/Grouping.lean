import Mathlib.Data.List.Nodup

/-!
# Groups under keys

Items are pushed to the group of their key, and groups stand in the order of
their first items.  A group holds all items with its key, so the groups of one
item are the items whose key occurs once.
-/

namespace Motrix.Lib.Grouping

variable {Key Item : Type} [DecidableEq Key] {name : Item → Key}
  {items : List Item} {groups : List (Key × List Item)}

def push (groups : List (Key × List Item)) (key : Key) (item : Item) :
    List (Key × List Item) :=
  if key ∈ groups.map Prod.fst then
    groups.map fun group =>
      if group.1 = key then (key, group.2 ++ [item]) else group
  else groups ++ [(key, [item])]

/-- The items of the groups with no second item. -/
def singles (groups : List (Key × List Item)) : List Item :=
  (groups.filter fun group => decide (group.2.length ≤ 1)).flatMap Prod.snd

structure Sorts (name : Item → Key) (items : List Item)
    (groups : List (Key × List Item)) : Prop where
  distinct : (groups.map Prod.fst).Nodup
  group : ∀ group ∈ groups,
    group.2 ≠ [] ∧ group.2 = items.filter fun item => name item = group.1
  covers : ∀ item ∈ items, name item ∈ groups.map Prod.fst

theorem push_keys (key : Key) (item : Item) :
    (push groups key item).map Prod.fst =
      if key ∈ groups.map Prod.fst then groups.map Prod.fst
      else groups.map Prod.fst ++ [key] := by
  unfold push
  split
  · rw [List.map_map]
    apply List.map_congr_left
    intro group _
    by_cases same : group.1 = key
    · simp [same]
    · simp [same]
  · simp

namespace Sorts

theorem nil (name : Item → Key) : Sorts name [] [] where
  distinct := List.nodup_nil
  group := by simp
  covers := by simp

theorem push (sorts : Sorts name items groups) (item : Item) :
    Sorts name (items ++ [item]) (push groups (name item) item) where
  distinct := by
    rw [push_keys]
    split
    · exact sorts.distinct
    · next fresh =>
        apply List.Nodup.append sorts.distinct (List.nodup_singleton _)
        simpa using fresh
  group := by
    intro group inside
    unfold Grouping.push at inside
    split at inside
    · obtain ⟨old, there, rfl⟩ := List.mem_map.mp inside
      obtain ⟨filled, all⟩ := sorts.group old there
      by_cases same : old.1 = name item
      · simp [same, all]
      · have other : name item ≠ old.1 := fun equal => same equal.symm
        simp [same, other, filled, ← all]
    · next fresh =>
        rcases List.mem_append.mp inside with there | last
        · obtain ⟨filled, all⟩ := sorts.group group there
          have other : name item ≠ group.1 := by
            intro equal
            exact fresh (equal ▸ List.mem_map_of_mem there)
          simp [other, filled, ← all]
        · have new : group = (name item, [item]) := by simpa using last
          have none : items.filter (fun old => name old = name item) = [] := by
            rw [List.filter_eq_nil_iff]
            intro old among equal
            have known := sorts.covers old among
            rw [of_decide_eq_true equal] at known
            exact fresh known
          simp [new, none]
  covers := by
    intro other inside
    rw [push_keys]
    rcases List.mem_append.mp inside with old | new
    · have known := sorts.covers other old
      split
      · exact known
      · exact List.mem_append_left _ known
    · have same : other = item := by simpa using new
      rw [same]
      split
      · assumption
      · simp

/-- A group with no second item holds the one item with its key. -/
theorem single (sorts : Sorts name items groups) {group : Key × List Item}
    (inside : group ∈ groups) (short : group.2.length ≤ 1) :
    ∃ item, group.2 = [item] ∧ name item = group.1 := by
  obtain ⟨filled, all⟩ := sorts.group group inside
  have one : group.2.length = 1 := by
    have some' := List.length_pos_iff.mpr filled
    omega
  obtain ⟨item, only⟩ := List.length_eq_one_iff.mp one
  have member : item ∈ items.filter fun item => name item = group.1 := by
    rw [← all, only]
    exact List.mem_singleton_self item
  exact ⟨item, only, by simpa using (List.mem_filter.mp member).2⟩

theorem mem_singles (sorts : Sorts name items groups) {item : Item} :
    item ∈ singles groups ↔
      item ∈ items ∧
        (items.filter fun other => name other = name item).length ≤ 1 := by
  unfold singles
  rw [List.mem_flatMap]
  constructor
  · rintro ⟨group, chosen, inside⟩
    obtain ⟨there, short⟩ := List.mem_filter.mp chosen
    have all := (sorts.group group there).2
    rw [all] at inside
    obtain ⟨among, same⟩ := List.mem_filter.mp inside
    refine ⟨among, ?_⟩
    rw [of_decide_eq_true same, ← all]
    exact of_decide_eq_true short
  · rintro ⟨among, short⟩
    obtain ⟨group, there, same⟩ := List.mem_map.mp (sorts.covers item among)
    have all := (sorts.group group there).2
    rw [same] at all
    refine ⟨group, List.mem_filter.mpr ⟨there, ?_⟩, ?_⟩
    · rw [all]
      exact decide_eq_true short
    · rw [all]
      simpa using among

/-- A key has a group of one item exactly if such an item is left. -/
theorem any_short (sorts : Sorts name items groups) (key : Key) :
    (groups.filter fun group => decide (group.2.length ≤ 1)).any
        (fun group => group.1 == key) =
      (singles groups).any fun item => name item == key := by
  rw [Bool.eq_iff_iff]
  unfold singles
  simp only [List.any_eq_true, List.mem_flatMap, beq_iff_eq]
  constructor
  · rintro ⟨group, chosen, same⟩
    obtain ⟨there, short⟩ := List.mem_filter.mp chosen
    obtain ⟨item, only, named⟩ :=
      sorts.single there (of_decide_eq_true short)
    exact ⟨item, ⟨group, chosen, by simp [only]⟩, named.trans same⟩
  · rintro ⟨item, ⟨group, chosen, inside⟩, same⟩
    obtain ⟨there, short⟩ := List.mem_filter.mp chosen
    obtain ⟨other, only, named⟩ :=
      sorts.single there (of_decide_eq_true short)
    have equal : item = other := by simpa [only] using inside
    exact ⟨group, chosen, by rw [← named, ← equal, same]⟩

theorem singles_distinct (sorts : Sorts name items groups) :
    ((singles groups).map name).Nodup := by
  have keys : ∀ list : List (Key × List Item),
      (∀ group ∈ list, ∃ item, group.2 = [item] ∧ name item = group.1) →
        (list.flatMap Prod.snd).map name = list.map Prod.fst := by
    intro list
    induction list with
    | nil => simp
    | cons group rest induction =>
        intro each
        obtain ⟨⟨item, only, named⟩, others⟩ := List.forall_mem_cons.mp each
        simp [only, named, induction others]
  unfold singles
  rw [keys]
  · exact sorts.distinct.sublist (List.filter_sublist.map Prod.fst)
  · intro group chosen
    obtain ⟨there, short⟩ := List.mem_filter.mp chosen
    exact sorts.single there (of_decide_eq_true short)

end Sorts

/-- An item that is not left alone has company in its group. -/
theorem Sorts.company (sorts : Sorts name items groups) {item : Item}
    (among : item ∈ items) (gone : item ∉ singles groups) :
    groups.any (fun group => decide (1 < group.2.length)) = true := by
  obtain ⟨group, there, same⟩ := List.mem_map.mp (sorts.covers item among)
  have all := (sorts.group group there).2
  rw [same] at all
  rw [List.any_eq_true]
  refine ⟨group, there, decide_eq_true ?_⟩
  rw [all]
  rw [sorts.mem_singles] at gone
  apply Nat.lt_of_not_le
  exact fun short => gone ⟨among, short⟩

end Motrix.Lib.Grouping
