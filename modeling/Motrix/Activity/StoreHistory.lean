import Mathlib.Data.List.Nodup
import Motrix.Activity.Store
import Motrix.Lib.BoundedHistory
import Motrix.Lib.Except

/-!
# Pruning the history table

With one row more than the table keeps for a task, every row stays but the
oldest that may go.
-/

namespace Motrix.Activity

open Motrix.Lib

def isAdded (event : TaskHistoryEvent) : Bool :=
  event.kind == .added

def isAddedRow (row : HistoryRow) : Bool :=
  isAdded row.event

theorem eq_of_increasing {Item : Type} {key : Item → Nat} {items : List Item}
    (increasing : items.Pairwise fun left right => key left < key right)
    {left right : Item} (leftMember : left ∈ items)
    (rightMember : right ∈ items) (same : key left = key right) :
    left = right := by
  have distinct : (items.map key).Nodup := by
    apply List.pairwise_map.mpr
    exact increasing.imp Nat.ne_of_lt
  exact List.inj_on_of_nodup_map distinct leftMember rightMember same

/-- Rows in the order of their ordinals and of their ids. -/
structure Ascending (rows : List HistoryRow) : Prop where
  ordinals : rows.Pairwise fun left right =>
    left.event.eventOrdinal < right.event.eventOrdinal
  ids : rows.Pairwise fun left right => left.eventId < right.eventId

namespace Ascending

variable {rows : List HistoryRow}

theorem sublist {others : List HistoryRow} (ascending : Ascending rows)
    (part : others.Sublist rows) : Ascending others where
  ordinals := ascending.ordinals.sublist part
  ids := ascending.ids.sublist part

theorem ordinalSorted (ascending : Ascending rows) :
    rows.Pairwise fun left right => ordinalLE left right = true := by
  apply ascending.ordinals.imp
  intro left right less
  exact decide_eq_true (Nat.le_of_lt less)

theorem sorted (ascending : Ascending rows) : rows.mergeSort ordinalLE = rows :=
  List.mergeSort_of_pairwise ascending.ordinalSorted

theorem reversed (ascending : Ascending rows) :
    (rows.mergeSort fun left right => ordinalLE right left) =
      rows.reverse := by
  have permuted : (rows.mergeSort fun left right =>
      ordinalLE right left).Perm rows.reverse :=
    (List.mergeSort_perm _ _).trans (List.reverse_perm rows).symm
  have backwards : rows.reverse.Pairwise fun left right =>
      ordinalLE right left = true :=
    List.pairwise_reverse.mpr ascending.ordinalSorted
  have sorted : (rows.mergeSort fun left right =>
      ordinalLE right left).Pairwise fun left right =>
        ordinalLE right left = true := by
    apply List.pairwise_mergeSort
    · intro first second third left right
      simp only [ordinalLE, decide_eq_true_eq] at left right ⊢
      omega
    · intro left right
      simp only [ordinalLE, Bool.or_eq_true, decide_eq_true_eq]
      omega
  refine permuted.eq_of_pairwise ?_ sorted backwards
  intro left right leftMember rightMember forward backward
  have leftRow := (List.mergeSort_perm _ _).subset leftMember
  have rightRow := List.mem_reverse.mp rightMember
  simp only [ordinalLE, decide_eq_true_eq] at forward backward
  exact eq_of_increasing ascending.ordinals leftRow rightRow (by omega)

end Ascending

/-- The kept rows are the added one and the newest others. -/
theorem keepNewest_eq (addedId : Nat) (keep : List Nat)
    (rows : List HistoryRow) :
    keepNewest addedId keep rows =
      keep ++ ((rows.filter fun row => row.eventId != addedId).take
        (maxTaskHistoryEvents - keep.length)).map (·.eventId) := by
  induction rows generalizing keep with
  | nil =>
      rw [keepNewest, List.filter_nil, List.take_nil, List.map_nil,
        List.append_nil]
  | cons row rows induction =>
      unfold keepNewest
      by_cases own : row.eventId = addedId
      · have dropped : ¬ (row.eventId != addedId) = true := by
          rw [own, bne_self_eq_false]
          exact Bool.false_ne_true
        rw [if_pos own, List.filter_cons, if_neg dropped]
        exact induction keep
      · have taken : (row.eventId != addedId) = true := bne_iff_ne.mpr own
        rw [if_neg own, List.filter_cons, if_pos taken]
        by_cases full : keep.length ≥ maxTaskHistoryEvents
        · rw [if_pos full, Nat.sub_eq_zero_of_le full, List.take_zero,
            List.map_nil, List.append_nil]
        · have room : maxTaskHistoryEvents - keep.length =
              maxTaskHistoryEvents - (keep ++ [row.eventId]).length + 1 := by
            rw [List.length_append, List.length_singleton]
            omega
          rw [if_neg full, induction, room, List.take_succ_cons,
            List.map_cons, List.append_assoc]
          rfl

/-- The first added row of ascending rows, as pruning looks it up. -/
theorem Ascending.firstAdded {rows : List HistoryRow}
    (ascending : Ascending rows) :
    ((rows.filter (·.event.kind == .added)).mergeSort ordinalLE).head? =
      rows.find? isAddedRow := by
  have part : (rows.filter (·.event.kind == .added)).Sublist rows :=
    List.filter_sublist
  rw [(ascending.sublist part).sorted, List.head?_filter]
  rfl

theorem keptIds_plain {oldest : HistoryRow} {rows : List HistoryRow}
    (ascending : Ascending (oldest :: rows))
    (full : rows.length = maxTaskHistoryEvents)
    (unpinned : (oldest :: rows).find? isAddedRow = none) :
    keptIds (oldest :: rows) = (rows.reverse).map (·.eventId) := by
  unfold keptIds
  rw [ascending.firstAdded, unpinned, ascending.reversed, List.reverse_cons]
  have whole : (rows.reverse ++ [oldest]).take maxTaskHistoryEvents =
      rows.reverse := by
    rw [← full, ← List.length_reverse, List.take_left]
  simp only [whole]

theorem keptIds_added {added : HistoryRow} {rows others : List HistoryRow}
    {oldest : HistoryRow} (ascending : Ascending rows)
    (found : rows.find? isAddedRow = some added)
    (rest : (rows.filter fun row => row.eventId != added.eventId) =
      oldest :: others)
    (full : others.length + 1 = maxTaskHistoryEvents) :
    keptIds rows =
      added.eventId :: (others.reverse).map (·.eventId) := by
  unfold keptIds
  rw [ascending.firstAdded, found, ascending.reversed]
  simp only [keepNewest_eq]
  have whole : (others.reverse ++ [oldest]).take
      (maxTaskHistoryEvents - [added.eventId].length) = others.reverse := by
    have count : maxTaskHistoryEvents - [added.eventId].length =
        others.reverse.length := by
      rw [List.length_reverse, List.length_singleton]
      omega
    rw [count, List.take_left]
  rw [List.filter_reverse, rest, List.reverse_cons, whole]
  rfl

theorem filter_without (front : List HistoryRow) {back : List HistoryRow}
    {row : HistoryRow}
    (ascending : Ascending (front ++ row :: back)) :
    ((front ++ row :: back).filter fun other =>
      other.eventId != row.eventId) = front ++ back := by
  have parts := List.pairwise_append.mp ascending.ids
  have later := List.pairwise_cons.mp parts.2.1
  have gone : ¬ (row.eventId != row.eventId) = true := by
    rw [bne_self_eq_false]
    exact Bool.false_ne_true
  have frontKept : (front.filter fun other =>
      other.eventId != row.eventId) = front := by
    apply List.filter_eq_self.mpr
    intro other member
    have less := parts.2.2 other member row List.mem_cons_self
    exact bne_iff_ne.mpr (Nat.ne_of_lt less)
  have backKept : (back.filter fun other =>
      other.eventId != row.eventId) = back := by
    apply List.filter_eq_self.mpr
    intro other member
    exact bne_iff_ne.mpr (Nat.ne_of_gt (later.1 other member))
  rw [List.filter_append, List.filter_cons, if_neg gone, frontKept, backKept]

/-- One row too many: pruning keeps every row but the oldest that may go. -/
structure OneGoes (rows : List HistoryRow) (oldest : HistoryRow) : Prop where
  member : oldest ∈ rows
  others : ∀ row ∈ rows,
    row.eventId ∈ keptIds rows ↔ row.eventId ≠ oldest.eventId
  rest : dropOldest isAddedRow rows =
    rows.filter fun row => row.eventId != oldest.eventId

theorem oneGoes_of_kept (front : List HistoryRow) {back : List HistoryRow}
    {oldest : HistoryRow}
    (ascending : Ascending (front ++ oldest :: back))
    (kept : ∀ id, id ∈ keptIds (front ++ oldest :: back) ↔
      ∃ row ∈ front ++ back, row.eventId = id)
    (rest : dropOldest isAddedRow (front ++ oldest :: back) =
      front ++ back) :
    OneGoes (front ++ oldest :: back) oldest where
  member := List.mem_append_right _ List.mem_cons_self
  others row member := by
    have without := filter_without front ascending
    rw [kept]
    constructor
    · rintro ⟨other, otherMember, same⟩
      rw [← without] at otherMember
      have differs := bne_iff_ne.mp (List.mem_filter.mp otherMember).2
      rw [← same]
      exact differs
    · intro differs
      refine ⟨row, ?_, rfl⟩
      rw [← without]
      exact List.mem_filter.mpr ⟨member, bne_iff_ne.mpr differs⟩
  rest := by rw [rest, filter_without front ascending]

theorem oneGoes_plain {oldest : HistoryRow} {rows : List HistoryRow}
    (ascending : Ascending (oldest :: rows))
    (full : rows.length = maxTaskHistoryEvents)
    (unpinned : (oldest :: rows).find? isAddedRow = none) :
    OneGoes (oldest :: rows) oldest := by
  have plain : ¬ isAddedRow oldest = true :=
    List.find?_eq_none.mp unpinned oldest List.mem_cons_self
  apply oneGoes_of_kept [] ascending
  · intro id
    rw [List.nil_append, keptIds_plain ascending full unpinned,
      List.mem_map]
    simp only [List.mem_reverse, List.nil_append]
  · apply dropOldest_cons_plain isAddedRow plain
    rintro rfl
    cases full

/-- The first added row is the oldest of all, so the one behind it goes. -/
theorem oneGoes_pinned {first second : HistoryRow} {rows : List HistoryRow}
    (ascending : Ascending (first :: second :: rows))
    (full : rows.length + 1 = maxTaskHistoryEvents)
    (pinned : isAddedRow first = true) :
    OneGoes (first :: second :: rows) second := by
  have found : (first :: second :: rows).find? isAddedRow =
      some first := by
    simp only [List.find?_cons, pinned]
  have rest := filter_without [] ascending
  rw [List.nil_append, List.nil_append] at rest
  apply oneGoes_of_kept [first] ascending
  · intro id
    rw [List.singleton_append, keptIds_added ascending found rest full]
    rw [List.singleton_append, ← List.mem_map, List.map_cons, List.mem_cons,
      List.mem_cons, List.map_reverse, List.mem_reverse]
  · rw [List.singleton_append, List.singleton_append, dropOldest,
      if_pos pinned]

/-- The first added row is younger than the oldest, which goes. -/
theorem oneGoes_later {oldest added : HistoryRow} {rows : List HistoryRow}
    (ascending : Ascending (oldest :: rows))
    (full : rows.length = maxTaskHistoryEvents)
    (plain : ¬ isAddedRow oldest = true)
    (found : rows.find? isAddedRow = some added) :
    OneGoes (oldest :: rows) oldest := by
  have member := List.mem_of_find?_eq_some found
  obtain ⟨front, back, rfl⟩ := List.append_of_mem member
  have foundAll : (oldest :: (front ++ added :: back)).find?
      isAddedRow = some added := by
    simp only [List.find?_cons, plain]
    exact found
  have rest : ((oldest :: (front ++ added :: back)).filter fun row =>
      row.eventId != added.eventId) = oldest :: (front ++ back) :=
    filter_without (oldest :: front) ascending
  have count : (front ++ back).length + 1 = maxTaskHistoryEvents := by
    rw [← full, List.length_append, List.length_append, List.length_cons]
    omega
  apply oneGoes_of_kept [] ascending
  · intro id
    rw [List.nil_append, List.nil_append,
      keptIds_added ascending foundAll rest count]
    simp only [List.mem_cons, List.mem_map, List.mem_reverse,
      List.mem_append]
    constructor
    · rintro (rfl | ⟨row, rowMember, rfl⟩)
      · exact ⟨added, .inr (.inl rfl), rfl⟩
      · rcases rowMember with inFront | inBack
        · exact ⟨row, .inl inFront, rfl⟩
        · exact ⟨row, .inr (.inr inBack), rfl⟩
    · rintro ⟨row, inFront | rfl | inBack, rfl⟩
      · exact .inr ⟨row, .inl inFront, rfl⟩
      · exact .inl rfl
      · exact .inr ⟨row, .inr inBack, rfl⟩
  · exact dropOldest_cons_plain isAddedRow plain
      (List.append_ne_nil_of_right_ne_nil _ (List.cons_ne_nil added back))

theorem oneGoes {rows : List HistoryRow} (ascending : Ascending rows)
    (full : rows.length = maxTaskHistoryEvents + 1) :
    ∃ oldest, OneGoes rows oldest := by
  match rows, ascending, full with
  | first :: second :: rest, ascending, full =>
      simp only [List.length_cons, Nat.add_right_cancel_iff] at full
      by_cases pinned : isAddedRow first = true
      · exact ⟨second, oneGoes_pinned ascending full pinned⟩
      · cases found : (second :: rest).find? isAddedRow with
        | some added =>
            exact ⟨first, oneGoes_later ascending full pinned found⟩
        | none =>
            refine ⟨first, oneGoes_plain ascending full ?_⟩
            simp only [List.find?_cons, pinned]
            exact found

/-! ## One event more -/

theorem mem_dropped {rows : List HistoryRow} {oldest : HistoryRow}
    (goes : OneGoes rows oldest) {row : HistoryRow} (member : row ∈ rows) :
    row.eventId ∈ (pruneHistory rows).map (·.eventId) ↔
      row.eventId = oldest.eventId := by
  unfold pruneHistory
  constructor
  · intro dropped
    obtain ⟨other, otherDropped, same⟩ := List.mem_map.mp dropped
    obtain ⟨otherMember, notKept⟩ := List.mem_filter.mp otherDropped
    by_contra differs
    have kept := (goes.others row member).mpr differs
    rw [← same] at kept
    rw [List.contains_iff_mem.mpr kept] at notKept
    cases notKept
  · intro same
    refine List.mem_map.mpr ⟨oldest, List.mem_filter.mpr ⟨goes.member, ?_⟩,
      same.symm⟩
    have notKept : oldest.eventId ∉ keptIds rows := by
      intro kept
      exact (goes.others oldest goes.member).mp kept rfl
    rw [Bool.not_eq_true', Bool.eq_false_iff]
    intro contained
    exact notKept (List.contains_iff_mem.mp contained)

def droppedRows (rows : List HistoryRow) : List HistoryRow :=
  if rows.length > maxTaskHistoryEvents then pruneHistory rows else []

/-- The rows that a new row leaves behind. -/
def keepRows (rows : List HistoryRow) : List HistoryRow :=
  rows.filter fun row =>
    !((droppedRows rows).map (·.eventId)).contains row.eventId

theorem keepRows_short {rows : List HistoryRow}
    (short : rows.length ≤ maxTaskHistoryEvents) : keepRows rows = rows := by
  unfold keepRows droppedRows
  rw [if_neg (Nat.not_lt_of_le short)]
  exact List.filter_eq_self.mpr fun _ _ => rfl

theorem keepRows_full {rows : List HistoryRow} (ascending : Ascending rows)
    (full : rows.length = maxTaskHistoryEvents + 1) :
    keepRows rows = dropOldest isAddedRow rows := by
  obtain ⟨oldest, goes⟩ := oneGoes ascending full
  have long : rows.length > maxTaskHistoryEvents := by omega
  unfold keepRows droppedRows
  rw [if_pos long, goes.rest]
  apply List.filter_congr
  intro row member
  rw [Bool.eq_iff_iff, Bool.not_eq_true', Bool.eq_false_iff,
    ne_eq, List.contains_iff_mem, mem_dropped goes member, bne_iff_ne]

theorem keepRows_count {rows : List HistoryRow} (ascending : Ascending rows)
    (nearly : rows.length ≤ maxTaskHistoryEvents + 1) :
    (droppedRows rows).length + (keepRows rows).length = rows.length := by
  unfold droppedRows
  by_cases long : rows.length > maxTaskHistoryEvents
  · obtain ⟨oldest, goes⟩ := oneGoes ascending (by omega)
    have complement : keepRows rows = rows.filter fun row =>
        !(!(keptIds rows).contains row.eventId) := by
      unfold keepRows droppedRows
      rw [if_pos long]
      apply List.filter_congr
      intro row member
      rw [Bool.eq_iff_iff, Bool.not_eq_true', Bool.eq_false_iff, ne_eq,
        List.contains_iff_mem, mem_dropped goes member, Bool.not_not,
        List.contains_iff_mem, goes.others row member]
    rw [if_pos long, complement, pruneHistory]
    exact (List.length_eq_length_filter_add _).symm
  · rw [if_neg long, keepRows_short (Nat.le_of_not_lt long)]
    exact Nat.zero_add _

end Motrix.Activity

/-!
# The retained history of a task

What the store keeps of the events it has accepted for a task, over any run of
its operations.
-/

namespace Motrix.Activity

open Motrix.Lib

/-! ## One event more -/

theorem taskRows_insertEvent (db : ActivityDb) (input : TaskHistoryEventInput)
    (taskId : String) :
    taskRows (insertEvent db input) taskId =
      if input.taskId = taskId then
        taskRows db taskId ++
          [⟨nextEventId db, input.taskId, input.toTaskHistoryEvent⟩]
      else
        taskRows db taskId := by
  unfold taskRows insertEvent
  rw [List.filter_append, List.filter_cons, List.filter_nil]
  by_cases own : input.taskId = taskId
  · rw [if_pos (beq_iff_eq.mpr own), if_pos own]
  · have other : ¬ (input.taskId == taskId) = true := by
      intro same
      exact own (beq_iff_eq.mp same)
    rw [if_neg other, if_neg own, List.append_nil]

theorem taskRows_deleteRows (db : ActivityDb) (taskId other : String)
    (dropped : List HistoryRow) :
    taskRows (deleteRows db taskId dropped) other =
      if other = taskId then
        (taskRows db taskId).filter fun row =>
          !(dropped.map (·.eventId)).contains row.eventId
      else
        taskRows db other := by
  unfold taskRows deleteRows
  rw [List.filter_filter]
  by_cases own : other = taskId
  · rw [if_pos own, List.filter_filter, own]
    apply List.filter_congr
    intro row _
    cases row.taskId == taskId with
    | true => rw [Bool.true_and, Bool.true_and, Bool.and_true]
    | false => rw [Bool.false_and, Bool.and_false]
  · rw [if_neg own]
    apply List.filter_congr
    intro row _
    cases here : row.taskId == other with
    | true =>
        have elsewhere : (row.taskId == taskId) = false := by
          rw [beq_iff_eq.mp here]
          exact beq_false_of_ne own
        rw [elsewhere, Bool.false_and]
        rfl
    | false => rw [Bool.false_and]

theorem validated_ordinal {input : TaskHistoryEventInput}
    (valid : validateHistoryEventInput input = .ok ()) :
    input.eventOrdinal ≤ maxSafeInteger := by
  unfold validateHistoryEventInput at valid
  obtain ⟨_, -, afterTask⟩ := bind_eq_ok.mp valid
  obtain ⟨_, ordinal, -⟩ := bind_eq_ok.mp afterTask
  unfold assertPositiveSafeInteger at ordinal
  by_contra large
  rw [if_pos (.inr (Nat.lt_of_not_le large))] at ordinal
  cases ordinal

/-- A transition is ignored, or it is the next event of its task. -/
theorem recordTransition_cases {db next : ActivityDb}
    {input : TaskHistoryEventInput} {outcome : Option TaskActivityRevision}
    (recorded : recordTransition db input = .ok (outcome, next)) :
    next = db ∧ outcome = none ∨
      ∃ summary, db.summaries input.taskId = some summary ∧
        checkRecorded db input = .ok false ∧
        input.eventOrdinal = summary.lastEventOrdinal + 1 ∧
        input.eventOrdinal ≤ maxSafeInteger ∧
        appendEvent db summary input = .ok (outcome, next) := by
  unfold recordTransition at recorded
  cases valid : validateHistoryEventInput input with
  | error message =>
      rw [valid] at recorded
      cases recorded
  | ok done =>
      rw [valid] at recorded
      unfold applyTransition at recorded
      cases stored : db.summaries input.taskId with
      | none =>
          rw [stored] at recorded
          cases recorded
      | some summary =>
          cases checked : checkRecorded db input with
          | error message =>
              simp only [stored, checked, reduceCtorEq] at recorded
          | ok known =>
              cases known with
              | true =>
                  simp only [stored, checked] at recorded
                  cases recorded
                  exact .inl ⟨rfl, rfl⟩
              | false =>
                  simp only [stored, checked] at recorded
                  by_cases old : input.eventOrdinal ≤ summary.lastEventOrdinal
                  · rw [if_pos old] at recorded
                    cases recorded
                    exact .inl ⟨rfl, rfl⟩
                  · rw [if_neg old] at recorded
                    by_cases gap :
                        input.eventOrdinal ≠ summary.lastEventOrdinal + 1
                    · rw [if_pos gap] at recorded
                      cases recorded
                    · rw [if_neg gap] at recorded
                      exact .inr ⟨summary, rfl, rfl, not_not.mp gap,
                        validated_ordinal valid, recorded⟩

/-- What appending an event writes. -/
structure Appended (db : ActivityDb) (summary : Summary)
    (input : TaskHistoryEventInput) (next : ActivityDb) (updated : Summary) :
    Prop where
  tables : next = (deleteRows (insertEvent db input) input.taskId
    (droppedRows (readAllHistoryRows (insertEvent db input)
      input.taskId))).setSummary input.taskId updated
  lastEventOrdinal : updated.lastEventOrdinal = input.eventOrdinal
  historyDroppedCount : updated.historyDroppedCount =
    (saturatingAddSafeInteger summary.historyDroppedCount
      (droppedRows (readAllHistoryRows (insertEvent db input)
        input.taskId)).length).value

theorem appendEvent_appended {db next : ActivityDb} {summary : Summary}
    {input : TaskHistoryEventInput} {outcome : Option TaskActivityRevision}
    (appended : appendEvent db summary input = .ok (outcome, next)) :
    outcome.isSome ∧ ∃ updated, Appended db summary input next updated := by
  unfold appendEvent at appended
  by_cases exhausted : (saturatingAddSafeInteger summary.revision 1).saturated
  · simp only [if_pos exhausted, reduceCtorEq] at appended
  · simp only [if_neg exhausted] at appended
    cases appended
    exact ⟨rfl, _, rfl, rfl, rfl⟩

/-! ## The history of a task -/

/-- The tables hold what is retained of the accepted events. -/
structure HistoryOf (db : ActivityDb) (taskId : String)
    (accepted : List TaskHistoryEvent) : Prop where
  ordinals : accepted.map (·.eventOrdinal) = List.range' 1 accepted.length
  bounded : accepted.length ≤ maxSafeInteger
  rows : (taskRows db taskId).map (·.event) =
    retained maxTaskHistoryEvents isAdded accepted
  absent : db.summaries taskId = none → accepted = []
  counts : ∀ summary, db.summaries taskId = some summary →
    summary.lastEventOrdinal = accepted.length ∧
      summary.historyDroppedCount + (taskRows db taskId).length =
        accepted.length

def IdsAscending (db : ActivityDb) : Prop :=
  db.historyRows.Pairwise fun left right => left.eventId < right.eventId

namespace HistoryOf

variable {db : ActivityDb} {taskId : String}
variable {accepted : List TaskHistoryEvent}

theorem eventsAscending (history : HistoryOf db taskId accepted) :
    accepted.Pairwise fun left right =>
      left.eventOrdinal < right.eventOrdinal := by
  have ordered : (accepted.map (·.eventOrdinal)).Pairwise (· < ·) := by
    rw [history.ordinals]
    exact List.pairwise_lt_range'
  exact List.pairwise_map.mp ordered

theorem rowsAscending (history : HistoryOf db taskId accepted)
    (ids : IdsAscending db) : Ascending (taskRows db taskId) where
  ordinals := by
    have kept : (retained maxTaskHistoryEvents isAdded accepted).Pairwise
        fun left right => left.eventOrdinal < right.eventOrdinal :=
      history.eventsAscending.sublist (retained_sublist (by decide))
    rw [← history.rows, List.pairwise_map] at kept
    exact kept
  ids := ids.sublist List.filter_sublist

theorem rowsLength (history : HistoryOf db taskId accepted) :
    (taskRows db taskId).length =
      min accepted.length maxTaskHistoryEvents := by
  have length := congrArg List.length history.rows
  rw [List.length_map, retained_length (by decide)] at length
  exact length

end HistoryOf

theorem eventId_le_foldl (rows : List HistoryRow) (start : Nat) :
    start ≤ rows.foldl (fun largest row => max largest row.eventId) start ∧
      ∀ row ∈ rows, row.eventId ≤
        rows.foldl (fun largest row => max largest row.eventId) start := by
  induction rows generalizing start with
  | nil => exact ⟨Nat.le_refl _, fun _ member => nomatch member⟩
  | cons first rows induction =>
      obtain ⟨grows, covers⟩ := induction (max start first.eventId)
      refine ⟨Nat.le_trans (Nat.le_max_left _ _) grows, ?_⟩
      intro row member
      rcases List.mem_cons.mp member with rfl | later
      · exact Nat.le_trans (Nat.le_max_right _ _) grows
      · exact covers row later

theorem nextEventId_larger {db : ActivityDb} {row : HistoryRow}
    (member : row ∈ db.historyRows) : row.eventId < nextEventId db :=
  Nat.lt_succ_of_le ((eventId_le_foldl db.historyRows 0).2 row member)

theorem insertEvent_ids {db : ActivityDb} (ids : IdsAscending db)
    (input : TaskHistoryEventInput) : IdsAscending (insertEvent db input) := by
  apply List.pairwise_append.mpr
  refine ⟨ids, List.pairwise_singleton _ _, ?_⟩
  intro row member last lastMember
  rw [List.mem_singleton.mp lastMember]
  exact nextEventId_larger member

theorem setSummary_rows (db : ActivityDb) (taskId other : String)
    (summary : Summary) :
    taskRows (db.setSummary taskId summary) other = taskRows db other :=
  rfl

theorem setSummary_self (db : ActivityDb) (taskId : String)
    (summary : Summary) :
    (db.setSummary taskId summary).summaries taskId = some summary :=
  if_pos rfl

theorem setSummary_other (db : ActivityDb) {taskId other : String}
    (differs : other ≠ taskId) (summary : Summary) :
    (db.setSummary taskId summary).summaries other = db.summaries other :=
  if_neg differs

namespace HistoryOf

variable {db : ActivityDb} {accepted : List TaskHistoryEvent}
variable {input : TaskHistoryEventInput}

theorem ordinal_le {taskId : String} (history : HistoryOf db taskId accepted)
    {event : TaskHistoryEvent} (member : event ∈ accepted) :
    event.eventOrdinal ≤ accepted.length := by
  have ordinal : event.eventOrdinal ∈ accepted.map (·.eventOrdinal) :=
    List.mem_map_of_mem member
  rw [history.ordinals, List.mem_range'_1] at ordinal
  omega

theorem ordinals_concat {taskId : String}
    (history : HistoryOf db taskId accepted)
    (following : input.eventOrdinal = accepted.length + 1) :
    (accepted ++ [input.toTaskHistoryEvent]).map (·.eventOrdinal) =
      List.range' 1 (accepted ++ [input.toTaskHistoryEvent]).length := by
  rw [List.length_append, List.length_singleton, List.range'_1_concat,
    List.map_append, history.ordinals, Nat.add_comm 1, ← following]
  rfl

/-- The row of the next event goes behind those of its task. -/
theorem insertedAscending (history : HistoryOf db input.taskId accepted)
    (ids : IdsAscending db)
    (following : input.eventOrdinal = accepted.length + 1) :
    Ascending (taskRows (insertEvent db input) input.taskId) where
  ordinals := by
    rw [taskRows_insertEvent, if_pos rfl]
    apply List.pairwise_append.mpr
    refine ⟨(history.rowsAscending ids).ordinals,
      List.pairwise_singleton _ _, ?_⟩
    intro row member last lastMember
    have kept : row.event ∈ (taskRows db input.taskId).map (·.event) :=
      List.mem_map_of_mem member
    rw [history.rows] at kept
    have old := history.ordinal_le
      ((retained_sublist (by decide)).subset kept)
    rw [List.mem_singleton.mp lastMember]
    show row.event.eventOrdinal < input.eventOrdinal
    omega
  ids := (insertEvent_ids ids input).sublist List.filter_sublist

theorem keepRows_events (history : HistoryOf db input.taskId accepted)
    (ids : IdsAscending db)
    (following : input.eventOrdinal = accepted.length + 1) :
    (keepRows (taskRows (insertEvent db input) input.taskId)).map (·.event) =
      retained maxTaskHistoryEvents isAdded
        (accepted ++ [input.toTaskHistoryEvent]) := by
  have ascending := history.insertedAscending ids following
  have before := history.rowsLength
  have events : (taskRows (insertEvent db input) input.taskId).map (·.event) =
      retained maxTaskHistoryEvents isAdded accepted ++
        [input.toTaskHistoryEvent] := by
    rw [taskRows_insertEvent, if_pos rfl, List.map_append, history.rows]
    rfl
  have length := congrArg List.length events
  rw [List.length_map, List.length_append, List.length_singleton,
    retained_length (by decide)] at length
  by_cases full : maxTaskHistoryEvents ≤ accepted.length
  · rw [keepRows_full ascending (by omega), ← retained_concat (by decide) full,
      ← events, dropOldest_map]
    rfl
  · have short : (accepted ++ [input.toTaskHistoryEvent]).length ≤
        maxTaskHistoryEvents := by
      rw [List.length_append, List.length_singleton]
      omega
    rw [keepRows_short (by omega), events, retained_short (by omega),
      retained_short short]

/-- The next event of the task is kept, and what has to go for it goes. -/
theorem append {next : ActivityDb} {summary updated : Summary}
    (history : HistoryOf db input.taskId accepted) (ids : IdsAscending db)
    (stored : db.summaries input.taskId = some summary)
    (following : input.eventOrdinal = summary.lastEventOrdinal + 1)
    (safe : input.eventOrdinal ≤ maxSafeInteger)
    (appended : Appended db summary input next updated) :
    HistoryOf next input.taskId
      (accepted ++ [input.toTaskHistoryEvent]) := by
  obtain ⟨last, dropped⟩ := history.counts summary stored
  have ordinal : input.eventOrdinal = accepted.length + 1 := by omega
  have grown : (accepted ++ [input.toTaskHistoryEvent]).length =
      accepted.length + 1 := by
    rw [List.length_append, List.length_singleton]
  have ascending := history.insertedAscending ids ordinal
  have read : readAllHistoryRows (insertEvent db input) input.taskId =
      taskRows (insertEvent db input) input.taskId := ascending.sorted
  have inserted : (taskRows (insertEvent db input) input.taskId).length =
      (taskRows db input.taskId).length + 1 := by
    rw [taskRows_insertEvent, if_pos rfl, List.length_append,
      List.length_singleton]
  have kept : taskRows next input.taskId =
      keepRows (taskRows (insertEvent db input) input.taskId) := by
    rw [appended.tables, read, setSummary_rows, taskRows_deleteRows,
      if_pos rfl]
    rfl
  have before := history.rowsLength
  have count := keepRows_count ascending (by omega)
  refine ⟨history.ordinals_concat ordinal, by omega, ?_, ?_, ?_⟩
  · rw [kept, history.keepRows_events ids ordinal]
  · intro absent
    rw [appended.tables, setSummary_self] at absent
    cases absent
  · intro found present
    rw [appended.tables, setSummary_self] at present
    cases present
    have total : summary.historyDroppedCount + (droppedRows
        (taskRows (insertEvent db input) input.taskId)).length ≤
          maxSafeInteger := by omega
    rw [appended.lastEventOrdinal, appended.historyDroppedCount, read, kept,
      saturatingAddSafeInteger, saturatingAdd, if_neg (by omega)]
    constructor
    · omega
    · simp only
      omega

/-- Events of other tasks do not touch the history. -/
theorem other {next : ActivityDb} {summary updated : Summary}
    {taskId : String} (history : HistoryOf db taskId accepted)
    (differs : taskId ≠ input.taskId)
    (appended : Appended db summary input next updated) :
    HistoryOf next taskId accepted := by
  have rows : taskRows next taskId = taskRows db taskId := by
    rw [appended.tables, setSummary_rows, taskRows_deleteRows,
      if_neg differs, taskRows_insertEvent, if_neg differs.symm]
  have summaries : next.summaries taskId = db.summaries taskId := by
    rw [appended.tables, setSummary_other _ differs]
    rfl
  refine ⟨history.ordinals, history.bounded, ?_, ?_, ?_⟩
  · rw [rows, history.rows]
  · rw [summaries]
    exact history.absent
  · rw [summaries, rows]
    exact history.counts

end HistoryOf

theorem Appended.ids {db next : ActivityDb} {summary updated : Summary}
    {input : TaskHistoryEventInput} (ids : IdsAscending db)
    (appended : Appended db summary input next updated) :
    IdsAscending next := by
  rw [appended.tables]
  exact (insertEvent_ids ids input).sublist List.filter_sublist

/-! ## Operations that keep the history -/

def historyCounts (summary : Summary) : Nat × Nat :=
  (summary.lastEventOrdinal, summary.historyDroppedCount)

/-- The tables differ beside the histories only. -/
structure SameHistory (db next : ActivityDb) : Prop where
  rows : next.historyRows = db.historyRows
  counts : ∀ taskId, (next.summaries taskId).map historyCounts =
    (db.summaries taskId).map historyCounts

namespace SameHistory

variable {db next : ActivityDb}

theorem refl (db : ActivityDb) : SameHistory db db where
  rows := rfl
  counts _ := rfl

theorem trans {last : ActivityDb} (first : SameHistory db next)
    (second : SameHistory next last) : SameHistory db last where
  rows := second.rows.trans first.rows
  counts taskId := (second.counts taskId).trans (first.counts taskId)

theorem historyOf (same : SameHistory db next) {taskId : String}
    {accepted : List TaskHistoryEvent}
    (history : HistoryOf db taskId accepted) :
    HistoryOf next taskId accepted := by
  have rows : taskRows next taskId = taskRows db taskId := by
    unfold taskRows
    rw [same.rows]
  refine ⟨history.ordinals, history.bounded, ?_, ?_, ?_⟩
  · rw [rows, history.rows]
  · intro absent
    apply history.absent
    have counts := same.counts taskId
    rw [absent, Option.map_none] at counts
    exact Option.map_eq_none_iff.mp counts.symm
  · intro summary present
    have counts := same.counts taskId
    rw [present, Option.map_some] at counts
    obtain ⟨before, stored, equal⟩ := Option.map_eq_some_iff.mp counts.symm
    have kept := history.counts before stored
    simp only [historyCounts, Prod.mk.injEq] at equal
    rw [rows, ← equal.1, ← equal.2]
    exact kept

theorem ids (same : SameHistory db next) (ids : IdsAscending db) :
    IdsAscending next := by
  unfold IdsAscending
  rw [same.rows]
  exact ids

end SameHistory

theorem sameHistory_setSummary {db next : ActivityDb} {taskId : String}
    {before after : Summary} (stored : db.summaries taskId = some before)
    (counts : historyCounts after = historyCounts before)
    (rows : next.historyRows = db.historyRows)
    (others : next.summaries = db.summaries) :
    SameHistory db (next.setSummary taskId after) where
  rows := rows
  counts other := by
    by_cases own : other = taskId
    · rw [own, setSummary_self, stored, Option.map_some, Option.map_some,
        counts]
    · rw [setSummary_other next own, others]

theorem applyCheckpoint_history
    {compact : List TaskTransferSample → List TaskTransferSample}
    {db next : ActivityDb} {input : TaskActivityCheckpoint}
    {revision : TaskActivityRevision}
    (applied : applyCheckpoint compact db input = .ok (revision, next)) :
    SameHistory db next := by
  unfold applyCheckpoint at applied
  cases stored : db.summaries input.taskId with
  | none =>
      rw [stored] at applied
      cases applied
  | some summary =>
      simp only [stored] at applied
      by_cases exhausted :
          (saturatingAddSafeInteger summary.revision 1).saturated
      · rw [if_pos exhausted] at applied
        cases applied
      · rw [if_neg exhausted] at applied
        cases persisted : persistSamples compact (db.samples input.taskId)
            input.samples with
        | error message =>
            simp only [persisted, reduceCtorEq] at applied
        | ok samples =>
            simp only [persisted, Except.ok.injEq, Prod.mk.injEq] at applied
            rw [← applied.2]
            exact sameHistory_setSummary stored rfl rfl rfl

theorem applyAll_history
    {compact : List TaskTransferSample → List TaskTransferSample}
    {inputs : List TaskActivityCheckpoint} {db next : ActivityDb}
    {revisions : List TaskActivityRevision}
    (applied : applyAll compact db inputs = .ok (revisions, next)) :
    SameHistory db next := by
  induction inputs generalizing db next revisions with
  | nil =>
      cases applied
      exact .refl _
  | cons input inputs induction =>
      unfold applyAll at applied
      cases first : applyCheckpoint compact db input with
      | error message =>
          rw [first] at applied
          cases applied
      | ok result =>
          rw [first] at applied
          cases rest : applyAll compact result.2 inputs with
          | error message =>
              simp only [rest, reduceCtorEq] at applied
          | ok others =>
              simp only [rest, Except.ok.injEq, Prod.mk.injEq] at applied
              rw [← applied.2]
              exact (applyCheckpoint_history first).trans (induction rest)

theorem applyEach_history
    (compact : List TaskTransferSample → List TaskTransferSample)
    (inputs : List TaskActivityCheckpoint) (db : ActivityDb) :
    SameHistory db (applyEach compact db inputs).2 := by
  induction inputs generalizing db with
  | nil => exact .refl db
  | cons input inputs induction =>
      unfold applyEach
      cases first : applyCheckpoint compact db input with
      | error message => exact induction db
      | ok result =>
          exact (applyCheckpoint_history first).trans (induction result.2)

theorem checkpointBatch_history
    {compact : List TaskTransferSample → List TaskTransferSample}
    {inputs : List TaskActivityCheckpoint} {db next : ActivityDb}
    {result : CheckpointResult}
    (applied : checkpointBatch compact db inputs = .ok (result, next)) :
    SameHistory db next := by
  unfold checkpointBatch at applied
  cases prepared : prepareCheckpoints inputs with
  | error message =>
      rw [prepared] at applied
      cases applied
  | ok done =>
      rw [prepared] at applied
      cases all : applyAll compact db inputs with
      | error message =>
          simp only [all, Except.ok.injEq] at applied
          have each := applyEach_history compact inputs db
          rw [applied] at each
          exact each
      | ok committed =>
          simp only [all, Except.ok.injEq, Prod.mk.injEq] at applied
          rw [← applied.2]
          exact applyAll_history all

theorem ensureTask_ok {db next : ActivityDb} {taskId : String} {now : Nat}
    (ensured : ensureTask db taskId now = .ok next) :
    ∃ summary,
      summary.lastEventOrdinal = ((db.summaries taskId).map
        (·.lastEventOrdinal)).getD 0 ∧
      summary.historyDroppedCount = ((db.summaries taskId).map
        (·.historyDroppedCount)).getD 0 ∧
      next = db.setSummary taskId summary := by
  unfold ensureTask at ensured
  obtain ⟨_, -, afterTask⟩ := bind_eq_ok.mp ensured
  obtain ⟨_, -, afterNow⟩ := bind_eq_ok.mp afterTask
  by_cases parent : taskId ∉ db.parents
  · rw [if_neg parent] at afterNow
    cases afterNow
  rw [if_pos (not_not.mp parent)] at afterNow
  refine ⟨_, ?_, ?_, (pure_eq_ok.mp afterNow).symm⟩
  · cases db.summaries taskId with
    | none => rfl
    | some summary => rfl
  · cases db.summaries taskId with
    | none => rfl
    | some summary => rfl

theorem HistoryOf.ensured {db next : ActivityDb} {taskId other : String}
    {now : Nat} {accepted : List TaskHistoryEvent}
    (history : HistoryOf db other accepted)
    (ensured : ensureTask db taskId now = .ok next) :
    HistoryOf next other accepted := by
  obtain ⟨summary, last, dropped, rfl⟩ := ensureTask_ok ensured
  refine ⟨history.ordinals, history.bounded, history.rows, ?_, ?_⟩
  · intro absent
    by_cases own : other = taskId
    · rw [own, setSummary_self] at absent
      cases absent
    · rw [setSummary_other db own] at absent
      exact history.absent absent
  · intro found present
    by_cases own : other = taskId
    · rw [own, setSummary_self] at present
      cases present
      rw [setSummary_rows, last, dropped, ← own]
      cases stored : db.summaries other with
      | some before => exact history.counts before stored
      | none =>
          have length := history.rowsLength
          rw [history.absent stored] at length ⊢
          exact ⟨rfl, by rw [length]; rfl⟩
    · rw [setSummary_other db own] at present
      exact history.counts found present

/-! ## Runs of the store -/

inductive StoreOp where
  | persistParent (taskId : String)
  | ensureTask (taskId : String) (now : Nat)
  | transition (input : TaskHistoryEventInput)
  | checkpoint (inputs : List TaskActivityCheckpoint)

/-- An operation that throws leaves the tables as they were. -/
def commitOrKeep (db : ActivityDb) : Except String ActivityDb → ActivityDb
  | .error _ => db
  | .ok next => next

def applyOp (compact : List TaskTransferSample → List TaskTransferSample)
    (db : ActivityDb) : StoreOp → ActivityDb
  | .persistParent taskId => { db with parents := taskId :: db.parents }
  | .ensureTask taskId now =>
      commitOrKeep db (Motrix.Activity.ensureTask db taskId now)
  | .transition input =>
      commitOrKeep db ((recordTransition db input).map (·.2))
  | .checkpoint inputs =>
      commitOrKeep db ((checkpointBatch compact db inputs).map (·.2))

/-- The event an operation adds to the history of the task. -/
def acceptedBy (db : ActivityDb) (taskId : String) :
    StoreOp → List TaskHistoryEvent
  | .transition input =>
      match recordTransition db input with
      | .ok (some _, _) =>
          if input.taskId = taskId then [input.toTaskHistoryEvent] else []
      | _ => []
  | _ => []

def runStore (compact : List TaskTransferSample → List TaskTransferSample)
    (ops : List StoreOp) (db : ActivityDb) : ActivityDb :=
  ops.foldl (applyOp compact) db

def acceptedEvents
    (compact : List TaskTransferSample → List TaskTransferSample)
    (taskId : String) : List StoreOp → ActivityDb → List TaskHistoryEvent
  | [], _ => []
  | op :: ops, db =>
      acceptedBy db taskId op ++
        acceptedEvents compact taskId ops (applyOp compact db op)

theorem applyOp_history
    (compact : List TaskTransferSample → List TaskTransferSample)
    {db : ActivityDb} {taskId : String} {accepted : List TaskHistoryEvent}
    (history : HistoryOf db taskId accepted) (ids : IdsAscending db)
    (op : StoreOp) :
    HistoryOf (applyOp compact db op) taskId
        (accepted ++ acceptedBy db taskId op) ∧
      IdsAscending (applyOp compact db op) := by
  cases op with
  | persistParent parentId =>
      simp only [acceptedBy, List.append_nil]
      have same : SameHistory db
          (applyOp compact db (.persistParent parentId)) := ⟨rfl, fun _ => rfl⟩
      exact ⟨same.historyOf history, ids⟩
  | ensureTask ensuredId now =>
      simp only [acceptedBy, applyOp, List.append_nil]
      cases ensured : Motrix.Activity.ensureTask db ensuredId now with
      | error message => exact ⟨history, ids⟩
      | ok next =>
          obtain ⟨summary, -, -, written⟩ := ensureTask_ok ensured
          refine ⟨history.ensured ensured, ?_⟩
          rw [written]
          exact ids
  | checkpoint inputs =>
      simp only [acceptedBy, applyOp, List.append_nil]
      cases applied : checkpointBatch compact db inputs with
      | error message => exact ⟨history, ids⟩
      | ok result =>
          have same := checkpointBatch_history applied
          exact ⟨same.historyOf history, same.ids ids⟩
  | transition input =>
      simp only [acceptedBy, applyOp]
      cases recorded : recordTransition db input with
      | error message =>
          rw [List.append_nil]
          exact ⟨history, ids⟩
      | ok result =>
          obtain ⟨outcome, next⟩ := result
          rcases recordTransition_cases recorded with
            ⟨rfl, rfl⟩ | ⟨summary, stored, _, following, safe, appended⟩
          · rw [List.append_nil]
            exact ⟨history, ids⟩
          · obtain ⟨some, updated, written⟩ := appendEvent_appended appended
            obtain ⟨revision, rfl⟩ := Option.isSome_iff_exists.mp some
            by_cases own : input.taskId = taskId
            · subst own
              simp only [if_true]
              exact ⟨history.append ids stored following safe written,
                written.ids ids⟩
            · simp only [if_neg own, List.append_nil]
              exact ⟨history.other (Ne.symm own) written, written.ids ids⟩

theorem runStore_history
    (compact : List TaskTransferSample → List TaskTransferSample)
    {taskId : String} (ops : List StoreOp) {db : ActivityDb}
    {accepted : List TaskHistoryEvent}
    (history : HistoryOf db taskId accepted) (ids : IdsAscending db) :
    HistoryOf (runStore compact ops db) taskId
        (accepted ++ acceptedEvents compact taskId ops db) ∧
      IdsAscending (runStore compact ops db) := by
  induction ops generalizing db accepted with
  | nil =>
      unfold acceptedEvents
      rw [List.append_nil]
      exact ⟨history, ids⟩
  | cons op ops induction =>
      obtain ⟨historyNext, idsNext⟩ := applyOp_history compact history ids op
      unfold acceptedEvents
      rw [← List.append_assoc]
      exact induction historyNext idsNext

theorem empty_history (taskId : String) :
    HistoryOf ActivityDb.empty taskId [] where
  ordinals := rfl
  bounded := Nat.zero_le _
  rows := rfl
  absent _ := rfl
  counts _ present := nomatch present

/-- An event that the history has accepted is not accepted again. -/
theorem HistoryOf.redelivered {db : ActivityDb}
    {accepted : List TaskHistoryEvent} {input : TaskHistoryEventInput}
    (history : HistoryOf db input.taskId accepted)
    {event : TaskHistoryEvent} (recorded : event ∈ accepted)
    (ordinal : input.eventOrdinal = event.eventOrdinal)
    (compact : List TaskTransferSample → List TaskTransferSample) :
    applyOp compact db (.transition input) = db := by
  simp only [applyOp]
  cases outcome : recordTransition db input with
  | error message => rfl
  | ok result =>
      obtain ⟨revision, next⟩ := result
      rcases recordTransition_cases outcome with
        ⟨rfl, -⟩ | ⟨summary, stored, _, following, _, _⟩
      · rfl
      · have last := (history.counts summary stored).1
        have old := history.ordinal_le recorded
        omega

/-- The events of a task that the tables show. -/
def timeline (db : ActivityDb) (taskId : String) : List TaskHistoryEvent :=
  (readAllHistoryRows db taskId).map (·.event)

end Motrix.Activity
