import Mathlib.Data.List.Sort
import Mathlib.Data.List.Dedup
import Motrix.Activity.Store
import Motrix.Lib.Selection

/-!
# Compaction of the chart points

Points at one time become one.  When there are still too many of them, the
ends, the peaks and the first gap are kept, then boundaries from the newest
on, and the rest by the area a point spans with its neighbours.
-/

namespace Motrix.Activity

open Motrix.Lib

def coverageGapFlag : Nat := 4

def terminalFlag : Nat := 2

def statusBoundaryFlag : Nat := 1

/-- Rounds half up, and to zero below it. -/
def roundMs (value : Rat) : Nat :=
  (value + 1 / 2).floor.toNat

/-- A point as a caller gives it.  A speed that is no finite number has no
value. -/
structure SpeedPoint where
  t : Nat
  down : Option Rat
  up : Option Rat
  flags : Nat

/-- The numbers of the host and their arithmetic. -/
structure HostDoubles where
  Number : Type
  ofNat : Nat → Number
  add : Number → Number → Number
  sub : Number → Number → Number
  mul : Number → Number → Number
  div : Number → Number → Number
  abs : Number → Number
  max : Number → Number → Number
  /-- Neither zero nor NaN. -/
  isTruthy : Number → Bool
  isNonPositive : Number → Bool

namespace TaskTransferSample

def hasFlag (sample : TaskTransferSample) (flag : Nat) : Bool :=
  sample.flags &&& flag ≠ 0

def isGap (sample : TaskTransferSample) : Bool :=
  sample.hasFlag coverageGapFlag

end TaskTransferSample

/-! ## Normalization -/

def normalizedSpeed (value : Option Rat) (label : String) :
    Except String Nat :=
  match value with
  | none => .error (label ++ " must be finite and non-negative")
  | some speed =>
      if speed < 0 then
        .error (label ++ " must be finite and non-negative")
      else if roundMs speed > maxSafeInteger then
        .error (label ++ " exceeds the JavaScript safe integer range")
      else
        .ok (roundMs speed)

def normalizePoint (index : Nat) (point : SpeedPoint) :
    Except String TaskTransferSample := do
  assertPositiveSafeInteger point.t (sampleLabel index "t")
  let down ← normalizedSpeed point.down (sampleLabel index "down")
  let up ← normalizedSpeed point.up (sampleLabel index "up")
  assertNonNegativeSafeInteger point.flags (sampleLabel index "flags")
  if point.flags > maxSampleFlags then
    throw (sampleLabel index "flags" ++ " exceeds the SQLite bound")
  return {
    t := point.t
    down
    up
    flags := point.flags }

/-- `normalizeTransferSamples`, with the samples it returns. -/
def normalizePoints :
    Nat → List SpeedPoint → Except String (List TaskTransferSample)
  | _, [] => .ok []
  | index, point :: points => do
      let sample ← normalizePoint index point
      let samples ← normalizePoints (index + 1) points
      return sample :: samples

/-! ## Compaction -/

/-- The samples by time; those at one time become one. -/
def coalesceSamples (samples : List TaskTransferSample) :
    List TaskTransferSample :=
  readSamples (samples.foldl upsertSample [])

/-- A field of the point at an index of the list. -/
def fieldAt (points : List TaskTransferSample)
    (field : TaskTransferSample → Nat) (index : Nat) : Nat :=
  ((points[index]?).map field).getD 0

/-- The first index of a largest value. -/
def peakIndex (points : List TaskTransferSample)
    (direction : TaskTransferSample → Nat) : Nat :=
  (List.range' 1 (points.length - 1)).foldl (fun selected index =>
    if fieldAt points direction selected < fieldAt points direction index then
      index
    else selected) 0

section Scores

variable (host : HostDoubles)

def triangleContribution (left point right : TaskTransferSample)
    (direction : TaskTransferSample → Nat) (peak : Nat) : host.Number :=
  if peak = 0 then host.ofNat 0
  else
    let share := fun sample : TaskTransferSample =>
      host.div (host.ofNat (direction sample)) (host.ofNat peak)
    let leftTime := host.ofNat 0
    let pointTime := host.sub (host.ofNat point.t) (host.ofNat left.t)
    let rightTime := host.sub (host.ofNat right.t) (host.ofNat left.t)
    host.abs (host.add
      (host.add (host.mul leftTime (host.sub (share point) (share right)))
        (host.mul pointTime (host.sub (share right) (share left))))
      (host.mul rightTime (host.sub (share left) (share point))))

/-- A candidate of the fill, with the time that breaks ties. -/
structure Scored where
  index : Nat
  t : Nat
  score : host.Number

def scoreAt (points : List TaskTransferSample) (downloadPeak uploadPeak : Nat)
    (index : Nat) : Option (Scored host) := do
  let left ← points[index - 1]?
  let point ← points[index]?
  let right ← points[index + 1]?
  return {
    index
    t := point.t
    score := host.max
      (triangleContribution host left point right (·.down) downloadPeak)
      (triangleContribution host left point right (·.up) uploadPeak) }

/-- The comparison gives no positive number. -/
def ranksBefore (left right : Scored host) : Bool :=
  let difference := host.sub right.score left.score
  if host.isTruthy difference then host.isNonPositive difference
  else right.t ≤ left.t

def scoredIndexes (points : List TaskTransferSample)
    (downloadPeak uploadPeak : Nat) (selected : List Nat) : List Nat :=
  let unselected :=
    (List.range' 1 (points.length - 2)).filter (fun index =>
      ¬ index ∈ selected)
  let scored :=
    unselected.filterMap (scoreAt host points downloadPeak uploadPeak)
  (scored.mergeSort (ranksBefore host)).map (·.index)

def preferNewest (points : List TaskTransferSample) (flag : Nat)
    (selected : List Nat) : List Nat :=
  fill compactedTaskSampleCount
    (fun index => ((points[index]?).map (·.hasFlag flag)).getD false)
    (List.range points.length).reverse selected

/-- The ends, the peaks and the first gap. -/
def mustKeep (points : List TaskTransferSample) : List Nat :=
  let ends := addTo [0] (points.length - 1)
  let downloads := addTo ends (peakIndex points (·.down))
  let peaks := addTo downloads (peakIndex points (·.up))
  match points.findIdx? (·.isGap) with
  | none => peaks
  | some index => addTo peaks index

def selectIndexes (points : List TaskTransferSample) : List Nat :=
  let terminals := preferNewest points terminalFlag (mustKeep points)
  let boundaries := preferNewest points statusBoundaryFlag terminals
  if boundaries.length < compactedTaskSampleCount then
    fill compactedTaskSampleCount (fun _ => true)
      (scoredIndexes host points
        (fieldAt points (·.down) (peakIndex points (·.down)))
        (fieldAt points (·.up) (peakIndex points (·.up))) boundaries)
      boundaries
  else boundaries

/-- The compaction of normalized samples. -/
def compactSamples (samples : List TaskTransferSample) :
    List TaskTransferSample :=
  let points := coalesceSamples samples
  if points.length ≤ maxPersistedTaskSamples then points
  else
    ((selectIndexes host points).mergeSort
      (fun left right => left ≤ right)).filterMap (points[·]?)

def compactTaskTransferSamples (input : List SpeedPoint) :
    Except String (List TaskTransferSample) := do
  let samples ← normalizePoints 0 input
  return compactSamples host samples

end Scores

end Motrix.Activity

/-!
# What compaction keeps

The coalesced points ascend in time.  Of more than 96 of them the compaction
takes exactly 72, the ends, the peaks and the first gap among them.
-/

namespace Motrix.Activity

open Motrix.Lib

/-! ## Coalesced points -/

def times (samples : List TaskTransferSample) : List Nat :=
  samples.map (·.t)

theorem times_upsertSample (samples : List TaskTransferSample)
    (sample : TaskTransferSample) :
    times (upsertSample samples sample) = addTo (times samples) sample.t := by
  have listed : sample.t ∈ times samples ↔
      samples.any (·.t == sample.t) = true := by
    simp [times, List.any_eq_true]
  unfold upsertSample addTo
  by_cases present : sample.t ∈ times samples
  · rw [if_pos (listed.mp present), if_pos present]
    unfold times
    rw [List.map_map]
    apply List.map_congr_left
    intro other _
    by_cases same : other.t = sample.t
    · simp [same]
    · simp [same]
  · rw [if_neg (mt listed.mpr present), if_neg present]
    simp [times]

theorem times_foldl_upsertSample (added stored : List TaskTransferSample) :
    times (added.foldl upsertSample stored) =
      (times added).foldl addTo (times stored) := by
  induction added generalizing stored with
  | nil => rfl
  | cons sample rest induction =>
      rw [List.foldl_cons, induction, times_upsertSample]
      rfl

theorem foldl_addTo_nodup {Item : Type} [DecidableEq Item]
    (items : List Item) {selected : List Item} (distinct : selected.Nodup) :
    (items.foldl addTo selected).Nodup := by
  induction items generalizing selected with
  | nil => exact distinct
  | cons item rest induction => exact induction (addTo_nodup distinct item)

theorem mem_foldl_addTo {Item : Type} [DecidableEq Item]
    {items selected : List Item} {item : Item} :
    item ∈ items.foldl addTo selected ↔ item ∈ selected ∨ item ∈ items := by
  induction items generalizing selected with
  | nil => simp
  | cons first rest induction =>
      rw [List.foldl_cons, induction, mem_addTo, List.mem_cons, or_assoc]

theorem readSamples_perm (samples : List TaskTransferSample) :
    (readSamples samples).Perm samples :=
  List.mergeSort_perm _ _

theorem mem_times_coalesceSamples {samples : List TaskTransferSample}
    {t : Nat} : t ∈ times (coalesceSamples samples) ↔ t ∈ times samples := by
  have same : (times (coalesceSamples samples)).Perm
      (times (samples.foldl upsertSample [])) :=
    (readSamples_perm _).map _
  rw [same.mem_iff, times_foldl_upsertSample, mem_foldl_addTo]
  simp [times]

/-- The times of the points ascend. -/
def TimesAscend (points : List TaskTransferSample) : Prop :=
  points.Pairwise fun left right => left.t < right.t

theorem timesAscend_readSamples {samples : List TaskTransferSample}
    (distinct : (times samples).Nodup) : TimesAscend (readSamples samples) := by
  have sorted : (readSamples samples).Pairwise fun left right =>
      decide (left.t ≤ right.t) = true := by
    apply List.pairwise_mergeSort
    · intro first second third left right
      simp only [decide_eq_true_eq] at left right ⊢
      exact Nat.le_trans left right
    · intro left right
      simp only [Bool.or_eq_true, decide_eq_true_eq]
      exact Nat.le_total left.t right.t
  have different : (readSamples samples).Pairwise fun left right =>
      left.t ≠ right.t :=
    List.pairwise_map.mp (((readSamples_perm samples).map _).nodup_iff.mpr
      distinct)
  refine (sorted.and different).imp ?_
  intro left right both
  exact Nat.lt_of_le_of_ne (of_decide_eq_true both.1) both.2

theorem timesAscend_coalesceSamples (samples : List TaskTransferSample) :
    TimesAscend (coalesceSamples samples) := by
  apply timesAscend_readSamples
  rw [times_foldl_upsertSample]
  exact foldl_addTo_nodup _ List.nodup_nil

theorem TimesAscend.times_nodup {points : List TaskTransferSample}
    (ascending : TimesAscend points) : (times points).Nodup :=
  List.pairwise_map.mpr (ascending.imp Nat.ne_of_lt)

/-- There is one point for each time. -/
theorem coalesceSamples_length (samples : List TaskTransferSample) :
    (coalesceSamples samples).length = (times samples).dedup.length := by
  have same : (times (coalesceSamples samples)).Perm
      (times samples).dedup := by
    apply (List.perm_ext_iff_of_nodup
      (timesAscend_coalesceSamples samples).times_nodup
      (List.nodup_dedup _)).mpr
    intro t
    rw [mem_times_coalesceSamples, List.mem_dedup]
  have length := same.length_eq
  rwa [times, List.length_map] at length

/-! ## Peaks -/

/-- The largest value so far is at the selected index. -/
theorem peakIndex_foldl (value : Nat → Nat) (count : Nat) :
    ∀ index ≤ count, value index ≤
      value ((List.range' 1 count).foldl (fun selected index =>
        if value selected < value index then index else selected) 0) := by
  induction count with
  | zero =>
      intro index bound
      rw [Nat.le_zero.mp bound]
      exact Nat.le_refl _
  | succ count induction =>
      have next : 1 + 1 * count = count + 1 := by omega
      rw [List.range'_concat, List.foldl_append]
      simp only [List.foldl_cons, List.foldl_nil, next]
      generalize List.foldl _ 0 (List.range' 1 count) = selected at induction ⊢
      intro index bound
      by_cases last : index = count + 1
      · subst last
        split <;> omega
      · have earlier := induction index (by omega)
        split <;> omega

theorem peakIndex_foldl_le (value : Nat → Nat) (count : Nat) :
    (List.range' 1 count).foldl (fun selected index =>
      if value selected < value index then index else selected) 0 ≤ count := by
  induction count with
  | zero => exact Nat.le_refl 0
  | succ count induction =>
      rw [List.range'_concat, List.foldl_append]
      simp only [List.foldl_cons, List.foldl_nil]
      split <;> omega

section Points

variable {points : List TaskTransferSample}

theorem fieldAt_of_getElem? {field : TaskTransferSample → Nat} {index : Nat}
    {point : TaskTransferSample} (found : points[index]? = some point) :
    fieldAt points field index = field point := by
  simp [fieldAt, found]

theorem peakIndex_lt (filled : points ≠ [])
    (direction : TaskTransferSample → Nat) :
    peakIndex points direction < points.length := by
  have positive := List.length_pos_iff.mpr filled
  have bounded := peakIndex_foldl_le (fieldAt points direction)
    (points.length - 1)
  unfold peakIndex
  omega

/-- The point at the peak has the largest value. -/
theorem peakIndex_attains (direction : TaskTransferSample → Nat)
    {peak : TaskTransferSample}
    (found : points[peakIndex points direction]? = some peak) :
    ∀ point ∈ points, direction point ≤ direction peak := by
  intro point inside
  obtain ⟨index, bound, same⟩ := List.getElem_of_mem inside
  have largest := peakIndex_foldl (fieldAt points direction)
    (points.length - 1) index (by omega)
  have here : points[index]? = some point := by
    rw [List.getElem?_eq_getElem bound, same]
  have attained : fieldAt points direction (peakIndex points direction) =
      direction peak := fieldAt_of_getElem? found
  unfold peakIndex at attained
  rwa [fieldAt_of_getElem? here, attained] at largest

/-! ## Selected indexes -/

structure Keeps (points : List TaskTransferSample) (selected : List Nat) :
    Prop where
  first : 0 ∈ selected
  last : points.length - 1 ∈ selected
  download : peakIndex points (·.down) ∈ selected
  upload : peakIndex points (·.up) ∈ selected
  gap : ∀ index, points.findIdx? (·.isGap) = some index → index ∈ selected
  nodup : selected.Nodup
  bounded : ∀ index ∈ selected, index < points.length

theorem Keeps.grows {selected later : List Nat} {limit : Nat}
    (keeps : Keeps points selected)
    (grows : Grows limit (· < points.length) selected later) :
    Keeps points later where
  first := grows.kept _ keeps.first
  last := grows.kept _ keeps.last
  download := grows.kept _ keeps.download
  upload := grows.kept _ keeps.upload
  gap index found := grows.kept _ (keeps.gap index found)
  nodup := grows.nodup keeps.nodup
  bounded index inside := by
    rcases grows.allowed index inside with earlier | candidate
    · exact keeps.bounded index earlier
    · exact candidate

/-- The peaks and the ends. -/
theorem mem_peaks (points : List TaskTransferSample) (index : Nat) :
    index ∈ addTo (addTo (addTo [0] (points.length - 1))
        (peakIndex points (·.down))) (peakIndex points (·.up)) ↔
      index = 0 ∨ index = points.length - 1 ∨
        index = peakIndex points (·.down) ∨
          index = peakIndex points (·.up) := by
  simp only [mem_addTo, List.mem_singleton, or_assoc]

theorem mem_mustKeep (points : List TaskTransferSample) (index : Nat) :
    index ∈ mustKeep points ↔
      (index = 0 ∨ index = points.length - 1 ∨
        index = peakIndex points (·.down) ∨
          index = peakIndex points (·.up)) ∨
        points.findIdx? (·.isGap) = some index := by
  unfold mustKeep
  cases found : points.findIdx? (·.isGap) with
  | none =>
      rw [mem_peaks]
      simp
  | some gap =>
      dsimp only
      rw [mem_addTo, mem_peaks, Option.some.injEq, eq_comm (a := gap)]

theorem mustKeep_keeps (filled : points ≠ []) :
    Keeps points (mustKeep points) where
  first := (mem_mustKeep points 0).mpr (.inl (.inl rfl))
  last := (mem_mustKeep points _).mpr (.inl (.inr (.inl rfl)))
  download := (mem_mustKeep points _).mpr (.inl (.inr (.inr (.inl rfl))))
  upload := (mem_mustKeep points _).mpr (.inl (.inr (.inr (.inr rfl))))
  gap index found := (mem_mustKeep points index).mpr (.inr found)
  nodup := by
    have peaks := addTo_nodup (addTo_nodup (addTo_nodup
      (List.nodup_singleton 0) (points.length - 1))
      (peakIndex points (·.down))) (peakIndex points (·.up))
    unfold mustKeep
    cases points.findIdx? (·.isGap) with
    | none => exact peaks
    | some gap => exact addTo_nodup peaks gap
  bounded index inside := by
    have positive := List.length_pos_iff.mpr filled
    rcases (mem_mustKeep points index).mp inside with
      (same | same | same | same) | found
    · omega
    · omega
    · exact same ▸ peakIndex_lt filled _
    · exact same ▸ peakIndex_lt filled _
    · obtain ⟨bound, -⟩ := List.findIdx?_eq_some_iff_getElem.mp found
      exact bound

theorem mustKeep_length (points : List TaskTransferSample) :
    (mustKeep points).length ≤ 5 := by
  have grown : ∀ (selected : List Nat) (index : Nat),
      (addTo selected index).length ≤ selected.length + 1 :=
    fun selected index => addTo_length_le index
  have ends := grown [0] (points.length - 1)
  have downloads := grown (addTo [0] (points.length - 1))
    (peakIndex points (·.down))
  have peaks := grown (addTo (addTo [0] (points.length - 1))
    (peakIndex points (·.down))) (peakIndex points (·.up))
  rw [List.length_singleton] at ends
  unfold mustKeep
  cases points.findIdx? (·.isGap) with
  | none =>
      dsimp only
      omega
  | some gap =>
      have all := grown (addTo (addTo (addTo [0] (points.length - 1))
        (peakIndex points (·.down))) (peakIndex points (·.up))) gap
      dsimp only
      omega

theorem grows_preferNewest (flag : Nat) (selected : List Nat) :
    Grows compactedTaskSampleCount (· < points.length) selected
      (preferNewest points flag selected) := by
  apply grows_fill
  intro index inside
  exact List.mem_range.mp (List.mem_reverse.mp inside)

variable (host : HostDoubles)

/-- Every point between two others has a score. -/
theorem scoreAt_inner (downloadPeak uploadPeak : Nat) {index : Nat}
    (inner : index < points.length - 1) :
    ∃ scored, scoreAt host points downloadPeak uploadPeak index =
      some scored ∧ scored.index = index := by
  have left : points[index - 1]? = some points[index - 1] :=
    List.getElem?_eq_getElem (by omega)
  have point : points[index]? = some points[index] :=
    List.getElem?_eq_getElem (by omega)
  have right : points[index + 1]? = some points[index + 1] :=
    List.getElem?_eq_getElem (by omega)
  unfold scoreAt
  rw [left, point, right]
  exact ⟨_, rfl, rfl⟩

theorem mem_scoredIndexes {downloadPeak uploadPeak : Nat}
    {selected : List Nat} {index : Nat} :
    index ∈ scoredIndexes host points downloadPeak uploadPeak selected ↔
      (1 ≤ index ∧ index < points.length - 1) ∧ index ∉ selected := by
  unfold scoredIndexes
  dsimp only
  rw [List.mem_map]
  simp only [(List.mergeSort_perm _ _).mem_iff, List.mem_filterMap,
    List.mem_filter, List.mem_range'_1, decide_eq_true_eq]
  constructor
  · rintro ⟨scored, ⟨other, ⟨inside, unselected⟩, found⟩, same⟩
    have index : scored.index = other := by
      unfold scoreAt at found
      simp only [Option.bind_eq_bind, Option.bind_eq_some_iff] at found
      obtain ⟨_, -, _, -, _, -, same⟩ := found
      cases same
      rfl
    rw [← same, index]
    exact ⟨by omega, unselected⟩
  · rintro ⟨inside, unselected⟩
    obtain ⟨scored, found, same⟩ :=
      scoreAt_inner host downloadPeak uploadPeak inside.2
    exact ⟨scored, ⟨index, ⟨by omega, unselected⟩, found⟩, same⟩

/-- The selection uses up its budget. -/
theorem selectIndexes_keeps (long : maxPersistedTaskSamples < points.length) :
    Keeps points (selectIndexes host points) ∧
      (selectIndexes host points).length = compactedTaskSampleCount := by
  have long : 96 < points.length := long
  have filled : points ≠ [] := by
    intro empty
    rw [empty] at long
    cases long
  have short : (mustKeep points).length ≤ compactedTaskSampleCount :=
    Nat.le_trans (mustKeep_length points) (by decide)
  have grows := (@grows_preferNewest points terminalFlag
    (mustKeep points)).trans (grows_preferNewest statusBoundaryFlag _)
  have keeps := (mustKeep_keeps filled).grows grows
  have bounded := grows.length short
  unfold selectIndexes
  dsimp only
  split
  · generalize preferNewest points statusBoundaryFlag _ = selected at *
    constructor
    · apply keeps.grows (grows_fill _ ?_)
      intro index inside
      have between := ((mem_scoredIndexes host).mp inside).1
      omega
    · apply @fill_length _ _ _ _ _ (List.range points.length) bounded
      · intro index inside
        have below := List.mem_range.mp inside
        by_cases taken : index ∈ selected
        · exact .inl taken
        · right
          apply (mem_scoredIndexes host).mpr
          refine ⟨⟨?_, ?_⟩, taken⟩
          · apply Nat.pos_of_ne_zero
            intro same
            exact taken (same ▸ keeps.first)
          · apply Nat.lt_of_le_of_ne (Nat.le_sub_one_of_lt below)
            intro same
            exact taken (same ▸ keeps.last)
      · exact List.nodup_range
      · rw [List.length_range]
        exact Nat.le_trans (by decide) (Nat.le_of_lt long)
  · rename_i full
    exact ⟨keeps, Nat.le_antisymm bounded (Nat.le_of_not_lt full)⟩

/-! ## The kept points -/

/-- The points at the selected indexes, in their order. -/
def pointsAt (points : List TaskTransferSample) (selected : List Nat) :
    List TaskTransferSample :=
  (selected.mergeSort (fun left right => left ≤ right)).filterMap (points[·]?)

theorem mem_pointsAt {selected : List Nat} {point : TaskTransferSample} :
    point ∈ pointsAt points selected ↔
      ∃ index ∈ selected, points[index]? = some point := by
  unfold pointsAt
  simp only [List.mem_filterMap, (List.mergeSort_perm _ _).mem_iff]

theorem filterMap_getElem?_length {indexes : List Nat}
    (bounded : ∀ index ∈ indexes, index < points.length) :
    (indexes.filterMap (points[·]?)).length = indexes.length := by
  induction indexes with
  | nil => rfl
  | cons index rest induction =>
      rw [List.filterMap_cons,
        List.getElem?_eq_getElem (bounded index List.mem_cons_self)]
      dsimp only
      rw [List.length_cons, List.length_cons,
        induction fun other inside =>
          bounded other (List.mem_cons_of_mem index inside)]

theorem pointsAt_length {selected : List Nat}
    (bounded : ∀ index ∈ selected, index < points.length) :
    (pointsAt points selected).length = selected.length := by
  unfold pointsAt
  rw [filterMap_getElem?_length, List.length_mergeSort]
  intro index inside
  exact bounded index ((List.mergeSort_perm _ _).mem_iff.mp inside)

theorem timesAscend_pointsAt (ascending : TimesAscend points)
    {selected : List Nat} (distinct : selected.Nodup) :
    TimesAscend (pointsAt points selected) := by
  have sorted : (selected.mergeSort (fun left right => left ≤ right)).Pairwise
      fun left right : Nat => decide (left ≤ right) = true := by
    apply List.pairwise_mergeSort
    · intro first second third left right
      simp only [decide_eq_true_eq] at left right ⊢
      exact Nat.le_trans left right
    · intro left right
      simp only [Bool.or_eq_true, decide_eq_true_eq]
      exact Nat.le_total left right
  have different : (selected.mergeSort (fun left right => left ≤ right)).Nodup :=
    (List.mergeSort_perm _ _).nodup_iff.mpr distinct
  apply List.pairwise_filterMap.mpr
  refine (sorted.and different).imp ?_
  intro left right both leftPoint leftFound rightPoint rightFound
  have below : left < right :=
    Nat.lt_of_le_of_ne (of_decide_eq_true both.1) both.2
  obtain ⟨leftBound, leftSame⟩ := List.getElem?_eq_some_iff.mp leftFound
  obtain ⟨rightBound, rightSame⟩ := List.getElem?_eq_some_iff.mp rightFound
  rw [← leftSame, ← rightSame]
  exact List.pairwise_iff_getElem.mp ascending left right leftBound rightBound
    below

/-- What the compaction of too many points gives. -/
structure Compacted (points result : List TaskTransferSample) : Prop where
  length : result.length = compactedTaskSampleCount
  ascending : TimesAscend result
  inputs : ∀ point ∈ result, point ∈ points
  first : ∀ point, points.head? = some point → point ∈ result
  last : ∀ point, points.getLast? = some point → point ∈ result
  download : ∃ peak ∈ result, ∀ point ∈ points, point.down ≤ peak.down
  upload : ∃ peak ∈ result, ∀ point ∈ points, point.up ≤ peak.up
  gap : ∀ point, points.find? (·.isGap) = some point → point ∈ result

theorem compacted_pointsAt (ascending : TimesAscend points)
    {selected : List Nat} (keeps : Keeps points selected)
    (length : selected.length = compactedTaskSampleCount) :
    Compacted points (pointsAt points selected) where
  length := (pointsAt_length keeps.bounded).trans length
  ascending := timesAscend_pointsAt ascending keeps.nodup
  inputs point inside := by
    obtain ⟨index, -, found⟩ := mem_pointsAt.mp inside
    exact List.mem_of_getElem? found
  first point found :=
    mem_pointsAt.mpr ⟨0, keeps.first, List.head?_eq_getElem? ▸ found⟩
  last point found :=
    mem_pointsAt.mpr ⟨_, keeps.last, List.getLast?_eq_getElem? ▸ found⟩
  download := by
    have found := List.getElem?_eq_getElem (keeps.bounded _ keeps.download)
    exact ⟨_, mem_pointsAt.mpr ⟨_, keeps.download, found⟩,
      peakIndex_attains (·.down) found⟩
  upload := by
    have found := List.getElem?_eq_getElem (keeps.bounded _ keeps.upload)
    exact ⟨_, mem_pointsAt.mpr ⟨_, keeps.upload, found⟩,
      peakIndex_attains (·.up) found⟩
  gap point found := by
    rw [List.find?_eq_bind_findIdx?_getElem?, Option.bind_eq_some_iff] at found
    obtain ⟨index, located, here⟩ := found
    exact mem_pointsAt.mpr ⟨index, keeps.gap index located, here⟩

/-- The compaction of samples that are valid. -/
theorem compactSamples_compacted (samples : List TaskTransferSample) :
    ((times samples).dedup.length ≤ maxPersistedTaskSamples →
        compactSamples host samples = coalesceSamples samples) ∧
      (maxPersistedTaskSamples < (times samples).dedup.length →
        Compacted (coalesceSamples samples) (compactSamples host samples)) := by
  rw [← coalesceSamples_length]
  unfold compactSamples
  dsimp only
  constructor
  · intro short
    rw [if_pos short]
  · intro long
    rw [if_neg (Nat.not_le.mpr long)]
    obtain ⟨keeps, length⟩ := selectIndexes_keeps host long
    exact compacted_pointsAt (timesAscend_coalesceSamples samples) keeps length

end Points

end Motrix.Activity
