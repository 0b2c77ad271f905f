import Mathlib.Data.List.Induction
import Mathlib.Data.List.Nodup

/-!
# Last writes

A field that is overwritten by every entry of a list which sets it holds, in
the end, the value of the last entry that does.
-/

namespace Motrix.Lib

variable {Entry State Value : Type}

/-- The value of the last entry that sets one. -/
def lastWrite (write : Entry → Option Value) (entries : List Entry) :
    Option Value :=
  entries.reverse.findSome? write

theorem lastWrite_nil (write : Entry → Option Value) :
    lastWrite write [] = none :=
  rfl

theorem lastWrite_cons (write : Entry → Option Value) (entry : Entry)
    (entries : List Entry) :
    lastWrite write (entry :: entries) =
      (lastWrite write entries).or (write entry) := by
  have single : [entry].findSome? write = write entry := by
    rw [List.findSome?_cons]
    cases write entry with
    | none => rfl
    | some value => rfl
  unfold lastWrite
  rw [List.reverse_cons, List.findSome?_append, single]

theorem lastWrite_concat (write : Entry → Option Value) (entry : Entry)
    (entries : List Entry) :
    lastWrite write (entries ++ [entry]) =
      (write entry).or (lastWrite write entries) := by
  unfold lastWrite
  rw [List.reverse_append, List.reverse_singleton, List.singleton_append,
    List.findSome?_cons]
  cases write entry with
  | none => rfl
  | some value => rfl

/-- A field that each step overwrites or keeps. -/
theorem foldl_lastWrite {step : State → Entry → State} {field : State → Value}
    {write : Entry → Option Value}
    (writes : ∀ state entry,
      field (step state entry) = (write entry).getD (field state))
    (entries : List Entry) (state : State) :
    field (entries.foldl step state) =
      (lastWrite write entries).getD (field state) := by
  induction entries generalizing state with
  | nil => rfl
  | cons entry entries induction =>
      rw [List.foldl_cons, induction, lastWrite_cons, writes]
      cases lastWrite write entries with
      | none => rfl
      | some value => rfl

/-- An optional field that each step overwrites or keeps. -/
theorem foldl_lastWrite_or {step : State → Entry → State}
    {field : State → Option Value} {write : Entry → Option Value}
    (writes : ∀ state entry,
      field (step state entry) = (write entry).or (field state))
    (entries : List Entry) (state : State) :
    field (entries.foldl step state) =
      (lastWrite write entries).or (field state) := by
  induction entries generalizing state with
  | nil => rfl
  | cons entry entries induction =>
      rw [List.foldl_cons, induction, lastWrite_cons, writes, Option.or_assoc]

/-- A field that no step changes. -/
theorem foldl_constant (field : State → Value) {step : State → Entry → State}
    (keeps : ∀ state entry, field (step state entry) = field state)
    (entries : List Entry) (state : State) :
    field (entries.foldl step state) = field state := by
  induction entries generalizing state with
  | nil => rfl
  | cons entry entries induction =>
      rw [List.foldl_cons, induction, keeps]

/-! ## The latest entry of a key -/

section Latest

variable {Key : Type} {key : Entry → Key} {entries : List Entry}
  {entry other : Entry}

/-- No later entry has the key of the entry. -/
def Latest (key : Entry → Key) (entries : List Entry) (entry : Entry) :
    Prop :=
  ∃ earlier later, entries = earlier ++ entry :: later ∧
    ∀ other ∈ later, key other ≠ key entry

theorem latest_concat :
    Latest key (entries ++ [other]) entry ↔
      entry = other ∨ (Latest key entries entry ∧ key other ≠ key entry) := by
  constructor
  · rintro ⟨earlier, later, split, apart⟩
    rcases List.eq_nil_or_concat later with rfl | ⟨front, last, rfl⟩
    · have same := (List.append_inj' split rfl).2
      exact Or.inl (List.head_eq_of_cons_eq same).symm
    · right
      have whole : entries ++ [other] = (earlier ++ entry :: front) ++ [last] := by
        simpa using split
      obtain ⟨rfl, same⟩ := List.append_inj' whole rfl
      obtain rfl := List.head_eq_of_cons_eq same
      constructor
      · refine ⟨earlier, front, rfl, fun later inside => apart later ?_⟩
        simp [inside]
      · exact apart other (by simp)
  · rintro (rfl | ⟨⟨earlier, later, rfl, apart⟩, distinct⟩)
    · exact ⟨entries, [], rfl, fun _ inside => absurd inside List.not_mem_nil⟩
    · refine ⟨earlier, later ++ [other], by simp, ?_⟩
      intro found inside
      rcases List.mem_append.mp inside with there | here
      · exact apart found there
      · rw [List.mem_singleton.mp here]
        exact distinct

theorem not_latest_nil : ¬Latest key [] entry := by
  rintro ⟨earlier, later, split, _⟩
  simp at split

theorem Latest.mem (latest : Latest key entries entry) : entry ∈ entries := by
  obtain ⟨earlier, later, rfl, _⟩ := latest
  simp

theorem Latest.unique (latest : Latest key entries entry)
    (also : Latest key entries other) (same : key entry = key other) :
    entry = other := by
  induction entries using List.reverseRecOn with
  | nil => exact absurd latest not_latest_nil
  | append_singleton front last induction =>
      rcases latest_concat.mp latest with rfl | ⟨earlier, apart⟩
      · rcases latest_concat.mp also with rfl | ⟨_, distinct⟩
        · rfl
        · exact absurd same distinct
      · rcases latest_concat.mp also with rfl | ⟨before, _⟩
        · exact absurd same.symm apart
        · exact induction earlier before

end Latest

/-! ## Maps that keep their first order -/

section Insert

variable {Key : Type} [DecidableEq Key] {key : Entry → Key}
  {entries : List Entry} {entry : Entry}

/-- A map keeps the place at which it has met a key. -/
def insert (key : Entry → Key) (entries : List Entry) (entry : Entry) :
    List Entry :=
  if entries.any fun old => key old = key entry then
    entries.map fun old => if key old = key entry then entry else old
  else entries ++ [entry]

theorem insert_keys : (insert key entries entry).map key =
    if key entry ∈ entries.map key then entries.map key
    else entries.map key ++ [key entry] := by
  by_cases inside : key entry ∈ entries.map key
  · obtain ⟨old, member, same⟩ := List.mem_map.mp inside
    have found : entries.any fun old => key old = key entry :=
      List.any_eq_true.mpr ⟨old, member, decide_eq_true same⟩
    rw [insert, if_pos found, if_pos inside, List.map_map]
    apply List.map_congr_left
    intro other _
    simp only [Function.comp_apply]
    split
    · next equal => exact equal.symm
    · rfl
  · have missing : ¬entries.any fun old => key old = key entry := by
      intro found
      obtain ⟨old, member, same⟩ := List.any_eq_true.mp found
      exact inside (List.mem_map.mpr ⟨old, member, of_decide_eq_true same⟩)
    rw [insert, if_neg missing, if_neg inside, List.map_append]
    rfl

theorem mem_insert {found : Entry} (member : found ∈ insert key entries entry) :
    found = entry ∨ found ∈ entries ∧ key entry ≠ key found := by
  unfold insert at member
  split at member
  · obtain ⟨old, before, same⟩ := List.mem_map.mp member
    split at same
    · exact Or.inl same.symm
    · next apart =>
        subst same
        exact Or.inr ⟨before, fun equal => apart equal.symm⟩
  · next missing =>
      rcases List.mem_append.mp member with before | last
      · refine Or.inr ⟨before, ?_⟩
        intro same
        exact missing (List.any_eq_true.mpr
          ⟨found, before, decide_eq_true same.symm⟩)
      · exact Or.inl (List.mem_singleton.mp last)

/-- Where the keys are distinct one entry gives its place to the new one. -/
theorem insert_split (distinct : (entries.map key).Nodup) {old : Entry}
    (member : old ∈ entries) (same : key old = key entry) :
    ∃ front back, entries = front ++ old :: back ∧
      insert key entries entry = front ++ entry :: back := by
  obtain ⟨front, back, split⟩ := List.append_of_mem member
  refine ⟨front, back, split, ?_⟩
  have found : entries.any fun old => key old = key entry :=
    List.any_eq_true.mpr ⟨old, member, decide_eq_true same⟩
  rw [split, List.map_append, List.map_cons,
    List.nodup_middle, List.nodup_cons] at distinct
  have others : ∀ part : List Entry,
      (∀ other ∈ part, key other ∈ front.map key ++ back.map key) →
      (part.map fun old => if key old = key entry then entry else old) =
        part := by
    intro part inside
    have keeps : ∀ other ∈ part,
        (if key other = key entry then entry else other) = id other := by
      intro other among
      rw [if_neg]
      · rfl
      · intro equal
        have here := inside other among
        rw [equal, ← same] at here
        exact distinct.1 here
    exact (List.map_congr_left keeps).trans (List.map_id part)
  rw [insert, if_pos found, split, List.map_append, List.map_cons, if_pos same,
    others front fun other among =>
      List.mem_append_left _ (List.mem_map_of_mem among),
    others back fun other among =>
      List.mem_append_right _ (List.mem_map_of_mem among)]

theorem insert_fresh (fresh : key entry ∉ entries.map key) :
    insert key entries entry = entries ++ [entry] := by
  rw [insert, if_neg]
  intro found
  obtain ⟨old, member, same⟩ := List.any_eq_true.mp found
  exact fresh (List.mem_map.mpr ⟨old, member, of_decide_eq_true same⟩)

theorem insert_distinct (distinct : (entries.map key).Nodup) :
    ((insert key entries entry).map key).Nodup := by
  rw [insert_keys]
  split
  · exact distinct
  · next fresh =>
      apply List.nodup_append'.mpr
      refine ⟨distinct, List.nodup_singleton _, ?_⟩
      exact List.disjoint_singleton.mpr fresh

theorem foldl_insert_distinct (key : Entry → Key) (entries : List Entry) :
    ((entries.foldl (insert key) []).map key).Nodup := by
  induction entries using List.reverseRecOn with
  | nil => exact List.nodup_nil
  | append_singleton front last induction =>
      rw [List.foldl_append]
      exact insert_distinct induction

/-- Of every key the map holds the latest entry, in the order of the first. -/
theorem foldl_insert [BEq Key] [LawfulBEq Key] (key : Entry → Key)
    (entries : List Entry) :
    (entries.foldl (insert key) []).map key = (entries.map key).eraseDups ∧
      ∀ entry ∈ entries.foldl (insert key) [], Latest key entries entry := by
  induction entries using List.reverseRecOn with
  | nil => simp
  | append_singleton front last induction =>
      obtain ⟨keys, latest⟩ := induction
      rw [List.foldl_append, List.foldl_cons, List.foldl_nil]
      constructor
      · rw [insert_keys, keys, List.map_append, List.eraseDups_append]
        by_cases known : key last ∈ front.map key
        · have gone : [key last].removeAll (front.map key) = [] := by
            simpa [List.removeAll, List.filter_cons] using known
          simp only [List.mem_eraseDups, if_pos known, List.map_cons,
            List.map_nil, gone, List.eraseDups_nil, List.append_nil]
        · have stays : [key last].removeAll (front.map key) = [key last] := by
            simpa [List.removeAll, List.filter_cons] using known
          simp only [List.mem_eraseDups, if_neg known, List.map_cons,
            List.map_nil, stays]
          rfl
      · intro entry member
        rw [latest_concat]
        rcases mem_insert member with same | ⟨before, apart⟩
        · exact Or.inl same
        · exact Or.inr ⟨latest entry before, apart⟩

end Insert

end Motrix.Lib
