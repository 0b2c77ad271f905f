import Mathlib.Tactic.Linarith
import Motrix.Activity.Compaction
import Motrix.Lib.Except
import Motrix.Activity.StoreHistory

/-!
# Compaction of the stored points

The rows of a task keep its earliest point and its earliest gap, however
often they are compacted.  They are always enough for a compaction to give
its exact count.
-/

namespace Motrix.Activity

open Motrix.Lib

/-! ## Valid samples -/

structure ValidSample (sample : TaskTransferSample) : Prop where
  t_pos : 0 < sample.t
  t_safe : sample.t ≤ maxSafeInteger
  down : sample.down ≤ maxSafeInteger
  up : sample.up ≤ maxSafeInteger
  flags : sample.flags ≤ maxSampleFlags

theorem normalizeTransferSamples_valid {index : Nat}
    {samples : List TaskTransferSample}
    (normal : normalizeTransferSamples index samples = .ok ()) :
    ∀ sample ∈ samples, ValidSample sample := by
  induction samples generalizing index with
  | nil =>
      intro sample inside
      cases inside
  | cons first rest induction =>
      unfold normalizeTransferSamples at normal
      obtain ⟨_, time, normal⟩ := bind_eq_ok.mp normal
      obtain ⟨_, down, normal⟩ := bind_eq_ok.mp normal
      obtain ⟨_, up, normal⟩ := bind_eq_ok.mp normal
      obtain ⟨_, -, normal⟩ := bind_eq_ok.mp normal
      have timed : ¬ (first.t = 0 ∨ first.t > maxSafeInteger) := by
        intro wrong
        rw [assertPositiveSafeInteger, if_pos wrong] at time
        cases time
      have downward : ¬ first.down > maxSafeInteger := by
        intro wrong
        rw [normalizeSpeed, if_pos wrong] at down
        cases down
      have upward : ¬ first.up > maxSafeInteger := by
        intro wrong
        rw [normalizeSpeed, if_pos wrong] at up
        cases up
      by_cases large : first.flags > maxSampleFlags
      · rw [if_pos large] at normal
        cases normal
      · rw [if_neg large] at normal
        intro sample inside
        rcases List.mem_cons.mp inside with same | later
        · subst same
          exact ⟨by omega, by omega, by omega, by omega, by omega⟩
        · exact induction normal sample later

def SpeedPoint.ofSample (sample : TaskTransferSample) : SpeedPoint where
  t := sample.t
  down := some sample.down
  up := some sample.up
  flags := sample.flags

theorem roundMs_natCast (value : Nat) : roundMs (value : Rat) = value := by
  unfold roundMs
  have floor : ((value : Rat) + 1 / 2).floor = (value : Int) := by
    apply Int.le_antisymm
    · apply Int.le_of_lt_add_one
      rw [Rat.floor_lt_iff, Rat.intCast_add, Rat.intCast_natCast]
      linarith
    · rw [Rat.le_floor_iff, Rat.intCast_natCast]
      linarith
  rw [floor]
  exact Int.toNat_natCast value

/-- A valid sample is normal. -/
theorem normalizePoint_ofSample {sample : TaskTransferSample}
    (valid : ValidSample sample) (index : Nat) :
    normalizePoint index (.ofSample sample) = .ok sample := by
  have time : ¬ (sample.t = 0 ∨ sample.t > maxSafeInteger) := by
    have positive := valid.t_pos
    have safe := valid.t_safe
    omega
  have speed : ∀ (value : Nat) (label : String), value ≤ maxSafeInteger →
      normalizedSpeed (some (value : Rat)) label = .ok value := by
    intro value label safe
    unfold normalizedSpeed
    have nonnegative : ¬ (value : Rat) < 0 := not_lt.mpr (Nat.cast_nonneg _)
    simp only [if_neg nonnegative, roundMs_natCast,
      if_neg (Nat.not_lt.mpr safe)]
  have flags : ¬ sample.flags > maxSafeInteger := by
    have bounded := valid.flags
    unfold maxSampleFlags at bounded
    unfold maxSafeInteger
    omega
  unfold normalizePoint SpeedPoint.ofSample
  simp only [assertPositiveSafeInteger, if_neg time, speed _ _ valid.down,
    speed _ _ valid.up, assertNonNegativeSafeInteger, if_neg flags,
    if_neg (Nat.not_lt.mpr valid.flags)]
  rfl

theorem normalizePoints_ofSample {samples : List TaskTransferSample}
    (valid : ∀ sample ∈ samples, ValidSample sample) (index : Nat) :
    normalizePoints index (samples.map .ofSample) = .ok samples := by
  induction samples generalizing index with
  | nil => rfl
  | cons first rest induction =>
      have later := induction (fun sample inside =>
        valid sample (List.mem_cons_of_mem first inside)) (index + 1)
      rw [List.map_cons, normalizePoints,
        normalizePoint_ofSample (valid first List.mem_cons_self), later]
      rfl

/-! ## The rows of a task -/

/-- The samples at a time. -/
def atTime (t : Nat) (samples : List TaskTransferSample) :
    List TaskTransferSample :=
  samples.filter (·.t = t)

/-- The rows hold the earliest of the logged samples and of their gaps. -/
structure Earliest (rows log : List TaskTransferSample) : Prop where
  valid : ∀ row ∈ rows, ValidSample row
  distinct : (times rows).Nodup
  logged : ∀ row ∈ rows, row.t ∈ times log
  first : ∀ t, (∀ sample ∈ log, t ≤ sample.t) →
    atTime t rows = (atTime t log).foldl upsertSample []
  gaps : ∀ sample ∈ log, sample.isGap = true →
    ∃ row ∈ rows, row.isGap = true ∧ row.t ≤ sample.t
  gapLogged : ∀ row ∈ rows, row.isGap = true →
    ∃ sample ∈ log, sample.isGap = true ∧ sample.t = row.t

theorem earliest_nil : Earliest [] [] where
  valid _ inside := by cases inside
  distinct := List.nodup_nil
  logged _ inside := by cases inside
  first _ _ := rfl
  gaps _ inside := by cases inside
  gapLogged _ inside := by cases inside

def mergedWith (row sample : TaskTransferSample) : TaskTransferSample :=
  { sample with flags := row.flags ||| sample.flags }

/-- A row after an upsert is old, the sample, or both merged. -/
theorem mem_upsertSample {rows : List TaskTransferSample}
    {sample row : TaskTransferSample}
    (inside : row ∈ upsertSample rows sample) :
    (row ∈ rows ∧ row.t ≠ sample.t) ∨ row = sample ∨
      ∃ old ∈ rows, old.t = sample.t ∧ row = mergedWith old sample := by
  unfold upsertSample at inside
  split at inside
  · obtain ⟨old, member, same⟩ := List.mem_map.mp inside
    by_cases own : old.t = sample.t
    · rw [if_pos (beq_iff_eq.mpr own)] at same
      exact .inr (.inr ⟨old, member, own, same.symm⟩)
    · rw [if_neg (mt beq_iff_eq.mp own)] at same
      subst same
      exact .inl ⟨member, own⟩
  · rename_i absent
    rcases List.mem_append.mp inside with old | new
    · refine .inl ⟨old, fun same => absent ?_⟩
      exact List.any_eq_true.mpr ⟨row, old, beq_iff_eq.mpr same⟩
    · exact .inr (.inl (List.mem_singleton.mp new))

/-- A row of another time stays. -/
theorem upsertSample_other {rows : List TaskTransferSample}
    {sample row : TaskTransferSample} (inside : row ∈ rows)
    (other : row.t ≠ sample.t) : row ∈ upsertSample rows sample := by
  unfold upsertSample
  split
  · exact List.mem_map.mpr ⟨row, inside, if_neg (mt beq_iff_eq.mp other)⟩
  · exact List.mem_append_left _ inside

/-- The row of the time of the sample takes its values. -/
theorem upsertSample_same {rows : List TaskTransferSample}
    {sample row : TaskTransferSample} (inside : row ∈ rows)
    (own : row.t = sample.t) :
    mergedWith row sample ∈ upsertSample rows sample := by
  have present : rows.any (·.t == sample.t) = true :=
    List.any_eq_true.mpr ⟨row, inside, beq_iff_eq.mpr own⟩
  unfold upsertSample
  rw [if_pos present]
  exact List.mem_map.mpr ⟨row, inside, if_pos (beq_iff_eq.mpr own)⟩

theorem isGap_mergedWith (row sample : TaskTransferSample) :
    (mergedWith row sample).isGap = (row.isGap || sample.isGap) := by
  have same : (mergedWith row sample).isGap = true ↔
      (row.isGap || sample.isGap) = true := by
    simp only [TaskTransferSample.isGap, TaskTransferSample.hasFlag,
      mergedWith, Nat.and_or_distrib_right, Bool.or_eq_true,
      decide_eq_true_eq, ne_eq, Nat.or_eq_zero_iff]
    exact Decidable.not_and_iff_not_or_not
  exact Bool.eq_iff_iff.mpr same

theorem upsertSample_taken (rows : List TaskTransferSample)
    (sample : TaskTransferSample) :
    ∃ row ∈ upsertSample rows sample, row.t = sample.t ∧
      (sample.isGap = true → row.isGap = true) := by
  by_cases present : rows.any (·.t == sample.t) = true
  · obtain ⟨row, inside, same⟩ := List.any_eq_true.mp present
    refine ⟨_, upsertSample_same inside (beq_iff_eq.mp same), rfl, ?_⟩
    intro gap
    rw [isGap_mergedWith, gap, Bool.or_true]
  · refine ⟨sample, ?_, rfl, id⟩
    unfold upsertSample
    rw [if_neg present]
    exact List.mem_append_right _ List.mem_cons_self

theorem atTime_upsertSample (t : Nat) (rows : List TaskTransferSample)
    (sample : TaskTransferSample) :
    atTime t (upsertSample rows sample) =
      if sample.t = t then upsertSample (atTime t rows) sample
      else atTime t rows := by
  unfold upsertSample
  by_cases present : rows.any (·.t == sample.t) = true
  · have filtered : ∀ samples : List TaskTransferSample,
        atTime t (samples.map fun other =>
          if other.t == sample.t then
            { sample with flags := other.flags ||| sample.flags }
          else other) =
        (atTime t samples).map fun other =>
          if other.t == sample.t then
            { sample with flags := other.flags ||| sample.flags }
          else other := by
      intro samples
      unfold atTime
      rw [List.filter_map]
      congr 1
      apply List.filter_congr
      intro other _
      by_cases own : other.t = sample.t
      · simp [own]
      · simp [own]
    rw [if_pos present, filtered]
    split
    · rename_i here
      obtain ⟨row, inside, same⟩ := List.any_eq_true.mp present
      have kept : (atTime t rows).any (·.t == sample.t) = true := by
        refine List.any_eq_true.mpr ⟨row, List.mem_filter.mpr ⟨inside, ?_⟩,
          same⟩
        simpa [here] using same
      rw [if_pos kept]
    · rename_i elsewhere
      refine (List.map_congr_left (g := id) ?_).trans (List.map_id _)
      intro other inside
      have own : other.t = t := by simpa using (List.mem_filter.mp inside).2
      have different : ¬ (other.t == sample.t) = true := by
        rw [beq_iff_eq, own]
        exact Ne.symm elsewhere
      rw [if_neg different]
      rfl
  · have absent : ¬ (atTime t rows).any (·.t == sample.t) = true := by
      intro kept
      obtain ⟨row, inside, same⟩ := List.any_eq_true.mp kept
      exact present (List.any_eq_true.mpr
        ⟨row, (List.mem_filter.mp inside).1, same⟩)
    rw [if_neg present, if_neg absent]
    unfold atTime
    rw [List.filter_append]
    split
    · rename_i here
      simp [here]
    · rename_i elsewhere
      simp [elsewhere]

theorem ValidSample.merged {row sample : TaskTransferSample}
    (old : ValidSample row) (new : ValidSample sample) :
    ValidSample (mergedWith row sample) where
  t_pos := new.t_pos
  t_safe := new.t_safe
  down := new.down
  up := new.up
  flags := by
    have left : row.flags < 2 ^ 31 := Nat.lt_succ_of_le old.flags
    have right : sample.flags < 2 ^ 31 := Nat.lt_succ_of_le new.flags
    exact Nat.le_of_lt_succ (Nat.or_lt_two_pow left right)

theorem Earliest.upsert {rows log : List TaskTransferSample}
    (earliest : Earliest rows log) {sample : TaskTransferSample}
    (valid : ValidSample sample) :
    Earliest (upsertSample rows sample) (log ++ [sample]) where
  valid row inside := by
    rcases mem_upsertSample inside with ⟨old, -⟩ | same | ⟨old, member, -, same⟩
    · exact earliest.valid row old
    · exact same ▸ valid
    · exact same ▸ (earliest.valid old member).merged valid
  distinct := by
    rw [times_upsertSample]
    exact addTo_nodup earliest.distinct _
  logged row inside := by
    unfold times
    rw [List.map_append, List.mem_append]
    rcases mem_upsertSample inside with ⟨old, -⟩ | same | ⟨old, -, -, same⟩
    · exact .inl (earliest.logged row old)
    · right
      rw [same]
      exact List.mem_cons_self
    · right
      rw [same]
      exact List.mem_cons_self
  first t least := by
    have before := earliest.first t fun other inside =>
      least other (List.mem_append_left _ inside)
    rw [atTime_upsertSample]
    split
    · rename_i here
      have logged : atTime t (log ++ [sample]) = atTime t log ++ [sample] := by
        simp [atTime, here]
      rw [logged, List.foldl_append, before]
      rfl
    · rename_i elsewhere
      have logged : atTime t (log ++ [sample]) = atTime t log := by
        simp [atTime, elsewhere]
      rw [logged, before]
  gaps other inside gap := by
    rcases List.mem_append.mp inside with old | new
    · obtain ⟨row, member, gapped, before⟩ := earliest.gaps other old gap
      by_cases own : row.t = sample.t
      · refine ⟨_, upsertSample_same member own, ?_, ?_⟩
        · rw [isGap_mergedWith, gapped, Bool.true_or]
        · exact own ▸ before
      · exact ⟨row, upsertSample_other member own, gapped, before⟩
    · have same := List.mem_singleton.mp new
      subst same
      obtain ⟨row, member, here, gapped⟩ := upsertSample_taken rows other
      exact ⟨row, member, gapped gap, Nat.le_of_eq here⟩
  gapLogged row inside gap := by
    have fresh : sample ∈ log ++ [sample] :=
      List.mem_append_right _ List.mem_cons_self
    have earlier : ∀ old ∈ rows, old.isGap = true →
        ∃ other ∈ log ++ [sample], other.isGap = true ∧ other.t = old.t := by
      intro old member gapped
      obtain ⟨other, present, rest⟩ := earliest.gapLogged old member gapped
      exact ⟨other, List.mem_append_left _ present, rest⟩
    rcases mem_upsertSample inside with
      ⟨old, -⟩ | same | ⟨old, member, here, same⟩
    · exact earlier row old gap
    · exact ⟨sample, fresh, same ▸ gap, same ▸ rfl⟩
    · rw [same, isGap_mergedWith, Bool.or_eq_true] at gap
      rcases gap with gapped | gapped
      · obtain ⟨other, present, flagged, time⟩ := earlier old member gapped
        exact ⟨other, present, flagged, time.trans (here.trans (same ▸ rfl))⟩
      · exact ⟨sample, fresh, gapped, same ▸ rfl⟩

theorem Earliest.upserts {rows log added : List TaskTransferSample}
    (earliest : Earliest rows log)
    (valid : ∀ sample ∈ added, ValidSample sample) :
    Earliest (added.foldl upsertSample rows) (log ++ added) := by
  induction added generalizing rows log with
  | nil => simpa using earliest
  | cons sample rest induction =>
      have next := induction
        (earliest.upsert (valid sample List.mem_cons_self))
        fun other inside => valid other (List.mem_cons_of_mem sample inside)
      rwa [List.append_assoc] at next

/-! ## Compacted rows -/

theorem foldl_upsertSample_distinct {samples rows : List TaskTransferSample}
    (distinct : (times (rows ++ samples)).Nodup) :
    samples.foldl upsertSample rows = rows ++ samples := by
  induction samples generalizing rows with
  | nil => exact (List.append_nil rows).symm
  | cons sample rest induction =>
      have absent : ¬ rows.any (·.t == sample.t) = true := by
        intro present
        obtain ⟨row, inside, same⟩ := List.any_eq_true.mp present
        unfold times at distinct
        rw [List.map_append] at distinct
        exact (List.nodup_append.mp distinct).2.2 row.t
          (List.mem_map_of_mem inside) sample.t List.mem_cons_self
          (beq_iff_eq.mp same)
      have split : rows ++ sample :: rest = (rows ++ [sample]) ++ rest := by
        simp
      rw [split] at distinct ⊢
      rw [List.foldl_cons, upsertSample, if_neg absent]
      exact induction distinct

/-- The rows have distinct times, so they are points already. -/
theorem coalesceSamples_rows {rows : List TaskTransferSample}
    (distinct : (times rows).Nodup) :
    (coalesceSamples (readSamples rows)).Perm rows := by
  have read : (times (readSamples rows)).Nodup :=
    ((readSamples_perm rows).map _).nodup_iff.mpr distinct
  unfold coalesceSamples
  rw [foldl_upsertSample_distinct (by simpa using read), List.nil_append]
  exact (readSamples_perm _).trans (readSamples_perm rows)

theorem atTime_of_mem {rows : List TaskTransferSample}
    (distinct : (times rows).Nodup) {row : TaskTransferSample}
    (inside : row ∈ rows) : atTime row.t rows = [row] := by
  unfold atTime
  induction rows with
  | nil => cases inside
  | cons first rest induction =>
      obtain ⟨absent, tail⟩ := List.nodup_cons.mp distinct
      rcases List.mem_cons.mp inside with same | later
      · subst same
        rw [List.filter_cons_of_pos (by simp)]
        congr 1
        apply List.filter_eq_nil_iff.mpr
        intro other member equal
        exact absent (List.mem_map.mpr
          ⟨other, member, of_decide_eq_true equal⟩)
      · have other : first.t ≠ row.t := by
          intro same
          exact absent (List.mem_map.mpr ⟨row, later, same.symm⟩)
        rw [List.filter_cons_of_neg (by simpa using other)]
        exact induction tail later

theorem atTime_of_absent {rows : List TaskTransferSample} {t : Nat}
    (absent : ∀ row ∈ rows, row.t ≠ t) : atTime t rows = [] :=
  List.filter_eq_nil_iff.mpr fun row inside equal =>
    absent row inside (of_decide_eq_true equal)

/-- The head of ascending points is their earliest. -/
theorem TimesAscend.head_le {points : List TaskTransferSample}
    (ascending : TimesAscend points) {first : TaskTransferSample}
    (found : points.head? = some first) :
    ∀ point ∈ points, first.t ≤ point.t := by
  cases points with
  | nil => cases found
  | cons head rest =>
      cases found
      intro point inside
      rcases List.mem_cons.mp inside with same | later
      · exact same ▸ Nat.le_refl _
      · exact Nat.le_of_lt ((List.pairwise_cons.mp ascending).1 point later)

/-- The first gap of ascending points is their earliest. -/
theorem TimesAscend.find?_le {points : List TaskTransferSample}
    (ascending : TimesAscend points) {chosen : TaskTransferSample → Bool}
    {point : TaskTransferSample} (inside : point ∈ points)
    (taken : chosen point = true) :
    ∃ first, points.find? chosen = some first ∧ chosen first = true ∧
      first.t ≤ point.t := by
  induction points with
  | nil => cases inside
  | cons head rest induction =>
      obtain ⟨below, tail⟩ := List.pairwise_cons.mp ascending
      cases here : chosen head with
      | true =>
          refine ⟨head, List.find?_cons_of_pos here, here, ?_⟩
          rcases List.mem_cons.mp inside with same | later
          · exact same ▸ Nat.le_refl _
          · exact Nat.le_of_lt (below point later)
      | false =>
          rcases List.mem_cons.mp inside with same | later
          · rw [← same, taken] at here
            cases here
          · rw [List.find?_cons_of_neg (by rw [here]; exact Bool.false_ne_true)]
            exact induction tail later

/-- A compaction of the rows keeps their earliest. -/
theorem Earliest.compacted {rows log points result : List TaskTransferSample}
    (earliest : Earliest rows log) (same : points.Perm rows)
    (ascending : TimesAscend points) (compacted : Compacted points result) :
    Earliest result log where
  valid row inside :=
    earliest.valid row (same.mem_iff.mp (compacted.inputs row inside))
  distinct := compacted.ascending.times_nodup
  logged row inside :=
    earliest.logged row (same.mem_iff.mp (compacted.inputs row inside))
  first t least := by
    rw [← earliest.first t least]
    by_cases present : ∃ row ∈ rows, row.t = t
    · obtain ⟨row, inside, here⟩ := present
      have point := same.mem_iff.mpr inside
      cases found : points.head? with
      | none =>
          rw [List.head?_eq_none_iff.mp found] at point
          cases point
      | some head =>
          have headInside : head ∈ rows :=
            same.mem_iff.mp (List.mem_of_mem_head? found)
          have below := ascending.head_le found row point
          obtain ⟨sample, member, time⟩ :=
            List.mem_map.mp (earliest.logged head headInside)
          have above := least sample member
          have headTime : head.t = t := by
            omega
          rw [← headTime, atTime_of_mem compacted.ascending.times_nodup
            (compacted.first head found), atTime_of_mem earliest.distinct
            headInside]
    · have absent : ∀ row ∈ rows, row.t ≠ t := fun row inside here =>
        present ⟨row, inside, here⟩
      rw [atTime_of_absent absent, atTime_of_absent fun row inside =>
        absent row (same.mem_iff.mp (compacted.inputs row inside))]
  gaps sample inside gap := by
    obtain ⟨row, member, gapped, before⟩ := earliest.gaps sample inside gap
    obtain ⟨first, found, flagged, earlier⟩ :=
      ascending.find?_le (same.mem_iff.mpr member) gapped
    exact ⟨first, compacted.gap first found, flagged,
      Nat.le_trans earlier before⟩
  gapLogged row inside :=
    earliest.gapLogged row (same.mem_iff.mp (compacted.inputs row inside))

/-- The store never fails to compact the rows of a task. -/
theorem Earliest.persist {rows log added : List TaskTransferSample}
    (earliest : Earliest rows log) (host : HostDoubles)
    (valid : ∀ sample ∈ added, ValidSample sample) :
    ∃ samples, persistSamples (compactSamples host) rows added = .ok samples ∧
      Earliest samples (log ++ added) ∧
        samples.length ≤ maxPersistedTaskSamples := by
  have upserted := earliest.upserts valid
  unfold persistSamples
  dsimp only
  generalize added.foldl upsertSample rows = current at upserted ⊢
  split
  · rename_i long
    have same := coalesceSamples_rows upserted.distinct
    have count : (times (readSamples current)).dedup.length =
        current.length := by
      rw [← coalesceSamples_length, same.length_eq]
    have compacted := (compactSamples_compacted host (readSamples current)).2
      (count ▸ long)
    rw [if_neg (not_not.mpr compacted.length)]
    refine ⟨_, rfl, upserted.compacted same (timesAscend_coalesceSamples _)
      compacted, ?_⟩
    rw [compacted.length]
    decide
  · rename_i short
    exact ⟨current, rfl, upserted, Nat.le_of_not_lt short⟩

/-- The rows of a task are normal, so the compaction takes them. -/
theorem Earliest.normal {rows log : List TaskTransferSample}
    (earliest : Earliest rows log) (host : HostDoubles) :
    compactTaskTransferSamples host ((readSamples rows).map .ofSample) =
      .ok (compactSamples host (readSamples rows)) := by
  unfold compactTaskTransferSamples
  rw [normalizePoints_ofSample fun sample inside =>
    earliest.valid sample ((readSamples_perm rows).mem_iff.mp inside)]
  rfl

end Motrix.Activity

/-!
# Compaction over runs of the store

Every checkpoint of a run finds rows that hold the earliest samples of all
checkpoints before it, and leaves such rows.
-/

namespace Motrix.Activity

open Motrix.Lib

/-! ## Accepted samples -/

/-- The samples that checkpoints of a task store when each has a transaction
of its own. -/
def eachSamples (compact : List TaskTransferSample → List TaskTransferSample)
    (taskId : String) :
    List TaskActivityCheckpoint → ActivityDb → List TaskTransferSample
  | [], _ => []
  | input :: inputs, db =>
      match applyCheckpoint compact db input with
      | .error _ => eachSamples compact taskId inputs db
      | .ok (_, next) =>
          (if input.taskId = taskId then input.samples else []) ++
            eachSamples compact taskId inputs next

/-- The samples an operation stores for the task. -/
def samplesBy (compact : List TaskTransferSample → List TaskTransferSample)
    (db : ActivityDb) (taskId : String) : StoreOp → List TaskTransferSample
  | .checkpoint inputs =>
      match prepareCheckpoints inputs with
      | .error _ => []
      | .ok () => eachSamples compact taskId inputs db
  | _ => []

def acceptedSamples
    (compact : List TaskTransferSample → List TaskTransferSample)
    (taskId : String) :
    List StoreOp → ActivityDb → List TaskTransferSample
  | [], _ => []
  | op :: ops, db =>
      samplesBy compact db taskId op ++
        acceptedSamples compact taskId ops (applyOp compact db op)

/-! ## Checkpoints -/

variable {host : HostDoubles}

theorem prepareCheckpoints_valid {inputs : List TaskActivityCheckpoint}
    (prepared : prepareCheckpoints inputs = .ok ()) :
    ∀ input ∈ inputs, ∀ sample ∈ input.samples, ValidSample sample := by
  induction inputs with
  | nil =>
      intro input inside
      cases inside
  | cons first rest induction =>
      obtain ⟨_, valid, later⟩ := bind_eq_ok.mp prepared
      intro input inside
      rcases List.mem_cons.mp inside with same | member
      · subst same
        unfold validateCheckpoint at valid
        iterate 8 obtain ⟨_, -, valid⟩ := bind_eq_ok.mp valid
        cases gap : input.coverageGapAt with
        | none =>
            simp only [gap] at valid
            exact normalizeTransferSamples_valid valid
        | some gapAt =>
            simp only [gap] at valid
            obtain ⟨_, -, valid⟩ := bind_eq_ok.mp valid
            exact normalizeTransferSamples_valid valid
      · exact induction later input member

/-- The rows of every task hold the earliest of its samples. -/
def Holds (db : ActivityDb) (log : String → List TaskTransferSample) : Prop :=
  ∀ taskId, Earliest (db.samples taskId) (log taskId)

theorem samples_applyCheckpoint
    {compact : List TaskTransferSample → List TaskTransferSample}
    {db next : ActivityDb} {input : TaskActivityCheckpoint}
    {revision : TaskActivityRevision}
    (applied : applyCheckpoint compact db input = .ok (revision, next)) :
    ∃ samples, persistSamples compact (db.samples input.taskId)
        input.samples = .ok samples ∧
      next.samples = fun id =>
        if id = input.taskId then samples else db.samples id := by
  unfold applyCheckpoint at applied
  split at applied
  · cases applied
  · dsimp only at applied
    split at applied
    · cases applied
    · split at applied
      · cases applied
      · rename_i samples persisted
        cases applied
        exact ⟨samples, persisted, rfl⟩

theorem Holds.applyCheckpoint {db next : ActivityDb}
    {log : String → List TaskTransferSample}
    {input : TaskActivityCheckpoint} {revision : TaskActivityRevision}
    (holds : Holds db log)
    (valid : ∀ sample ∈ input.samples, ValidSample sample)
    (applied : Motrix.Activity.applyCheckpoint (compactSamples host) db
      input = .ok (revision, next)) :
    Holds next fun taskId =>
      log taskId ++ if input.taskId = taskId then input.samples else [] := by
  obtain ⟨samples, persisted, written⟩ := samples_applyCheckpoint applied
  obtain ⟨kept, same, earliest, -⟩ :=
    (holds input.taskId).persist host valid
  rw [persisted] at same
  cases same
  intro taskId
  rw [written]
  dsimp only
  by_cases own : input.taskId = taskId
  · subst own
    rw [if_pos rfl, if_pos rfl]
    exact earliest
  · rw [if_neg (Ne.symm own), if_neg own, List.append_nil]
    exact holds taskId

theorem Holds.applyEach {db : ActivityDb}
    {log : String → List TaskTransferSample}
    (holds : Holds db log) {inputs : List TaskActivityCheckpoint}
    (valid : ∀ input ∈ inputs, ∀ sample ∈ input.samples,
      ValidSample sample) :
    Holds (Motrix.Activity.applyEach (compactSamples host) db inputs).2
      fun taskId =>
        log taskId ++ eachSamples (compactSamples host) taskId inputs db := by
  induction inputs generalizing db log with
  | nil => simpa [eachSamples, Motrix.Activity.applyEach] using holds
  | cons input rest induction =>
      have later : ∀ other ∈ rest, ∀ sample ∈ other.samples,
          ValidSample sample := fun other inside =>
        valid other (List.mem_cons_of_mem input inside)
      unfold Motrix.Activity.applyEach eachSamples
      cases applied : Motrix.Activity.applyCheckpoint (compactSamples host) db
          input with
      | error message => exact induction holds later
      | ok result =>
          have next := holds.applyCheckpoint
            (valid input List.mem_cons_self) applied
          have whole := induction next later
          simp only [List.append_assoc] at whole
          exact whole

/-- One transaction writes what the single ones would. -/
theorem applyAll_each
    {compact : List TaskTransferSample → List TaskTransferSample}
    {inputs : List TaskActivityCheckpoint} {db next : ActivityDb}
    {revisions : List TaskActivityRevision}
    (applied : applyAll compact db inputs = .ok (revisions, next)) :
    (applyEach compact db inputs).2 = next := by
  induction inputs generalizing db revisions with
  | nil =>
      cases applied
      rfl
  | cons input rest induction =>
      unfold applyAll at applied
      unfold applyEach
      cases first : applyCheckpoint compact db input with
      | error message =>
          rw [first] at applied
          cases applied
      | ok result =>
          obtain ⟨revision, between⟩ := result
          simp only [first] at applied
          cases all : applyAll compact between rest with
          | error message =>
              rw [all] at applied
              cases applied
          | ok outcome =>
              obtain ⟨others, last⟩ := outcome
              rw [all] at applied
              cases applied
              exact induction all

/-! ## Runs -/

theorem Holds.unwritten {db next : ActivityDb}
    {log : String → List TaskTransferSample} (holds : Holds db log)
    (same : next.samples = db.samples) :
    Holds next fun taskId => log taskId ++ [] := by
  intro taskId
  dsimp only
  rw [same, List.append_nil]
  exact holds taskId

theorem samples_ensureTask {db next : ActivityDb} {taskId : String}
    {now : Nat} (ensured : ensureTask db taskId now = .ok next) :
    next.samples = db.samples := by
  obtain ⟨summary, -, -, written⟩ := ensureTask_ok ensured
  rw [written]
  rfl

theorem samples_recordTransition {db next : ActivityDb}
    {input : TaskHistoryEventInput} {outcome : Option TaskActivityRevision}
    (recorded : recordTransition db input = .ok (outcome, next)) :
    next.samples = db.samples := by
  rcases recordTransition_cases recorded with
    ⟨same, -⟩ | ⟨summary, -, -, -, -, appended⟩
  · rw [same]
  · unfold appendEvent at appended
    dsimp only at appended
    split at appended
    · cases appended
    · cases appended
      rfl

theorem Holds.applyOp {db : ActivityDb}
    {log : String → List TaskTransferSample} (holds : Holds db log)
    (op : StoreOp) :
    Holds (Motrix.Activity.applyOp (compactSamples host) db op)
      fun taskId =>
        log taskId ++ samplesBy (compactSamples host) db taskId op := by
  cases op with
  | persistParent parentId => exact holds.unwritten rfl
  | ensureTask taskId now =>
      apply holds.unwritten
      simp only [Motrix.Activity.applyOp]
      cases ensured : Motrix.Activity.ensureTask db taskId now with
      | error message => rfl
      | ok next => exact samples_ensureTask ensured
  | transition input =>
      apply holds.unwritten
      simp only [Motrix.Activity.applyOp]
      cases recorded : recordTransition db input with
      | error message => rfl
      | ok result => exact samples_recordTransition recorded
  | checkpoint inputs =>
      simp only [Motrix.Activity.applyOp, samplesBy, checkpointBatch]
      cases prepared : prepareCheckpoints inputs with
      | error message => exact holds.unwritten rfl
      | ok done =>
          have each := @Holds.applyEach host _ _ holds _
            (prepareCheckpoints_valid prepared)
          cases all : applyAll (compactSamples host) db inputs with
          | error message => exact each
          | ok result =>
              rw [applyAll_each all] at each
              exact each

theorem Holds.runStore {db : ActivityDb}
    {log : String → List TaskTransferSample} (holds : Holds db log)
    (ops : List StoreOp) :
    Holds (Motrix.Activity.runStore (compactSamples host) ops db)
      fun taskId =>
        log taskId ++ acceptedSamples (compactSamples host) taskId ops db := by
  induction ops generalizing db log with
  | nil => simpa [acceptedSamples, Motrix.Activity.runStore] using holds
  | cons op ops induction =>
      have whole := induction (@Holds.applyOp host _ _ holds op)
      simp only [List.append_assoc] at whole
      exact whole

theorem holds_empty : Holds .empty fun _ => [] :=
  fun _ => earliest_nil

/-- In every run of the store the rows of a task can be compacted, and hold
its earliest samples. -/
structure Persists (host : HostDoubles) (rows log : List TaskTransferSample) :
    Prop where
  persisted : ∀ added, normalizeTransferSamples 0 added = .ok () →
    ∃ samples,
      persistSamples (compactSamples host) rows added = .ok samples
  /-- The rows are normal at the compaction, so it throws nothing itself. -/
  normal : ∀ added, normalizeTransferSamples 0 added = .ok () →
    let current := added.foldl upsertSample rows
    compactTaskTransferSamples host ((readSamples current).map .ofSample) =
      .ok (compactSamples host (readSamples current))
  first : ∀ t, (∀ sample ∈ log, t ≤ sample.t) →
    atTime t rows = (atTime t log).foldl upsertSample []
  gap : ∀ t, (∀ sample ∈ log, sample.isGap = true → t ≤ sample.t) →
    (∃ sample ∈ log, sample.isGap = true ∧ sample.t = t) →
      ∃ row ∈ rows, row.isGap = true ∧ row.t = t
  logged : ∀ row ∈ rows, row.t ∈ times log

theorem Earliest.persists {rows log : List TaskTransferSample}
    (earliest : Earliest rows log) : Persists host rows log where
  persisted added normal := by
    obtain ⟨samples, persisted, -⟩ :=
      earliest.persist host (normalizeTransferSamples_valid normal)
    exact ⟨samples, persisted⟩
  normal added normal :=
    (earliest.upserts (normalizeTransferSamples_valid normal)).normal host
  first := earliest.first
  gap t least := by
    rintro ⟨sample, inside, flagged, here⟩
    obtain ⟨row, member, gapped, before⟩ :=
      earliest.gaps sample inside flagged
    obtain ⟨other, present, otherGap, same⟩ :=
      earliest.gapLogged row member gapped
    have after := least other present otherGap
    exact ⟨row, member, gapped, by omega⟩
  logged := earliest.logged

/-- The compaction of valid samples is exact, and every run of the store
keeps the earliest samples. -/
theorem compaction_exact (host : HostDoubles) :
    (∀ input samples, normalizePoints 0 input = .ok samples →
      ∃ result, compactTaskTransferSamples host input = .ok result ∧
        ((times samples).dedup.length ≤ maxPersistedTaskSamples →
          result = coalesceSamples samples) ∧
        (maxPersistedTaskSamples < (times samples).dedup.length →
          Compacted (coalesceSamples samples) result)) ∧
    (∀ ops taskId,
      Persists host
        ((runStore (compactSamples host) ops .empty).samples taskId)
        (acceptedSamples (compactSamples host) taskId ops .empty)) := by
  constructor
  · intro input samples normal
    obtain ⟨short, long⟩ := compactSamples_compacted host samples
    refine ⟨compactSamples host samples, ?_, short, long⟩
    unfold compactTaskTransferSamples
    rw [normal]
    rfl
  · intro ops taskId
    have holds := @Holds.runStore host _ _ holds_empty ops taskId
    exact holds.persists

end Motrix.Activity
