import Mathlib.Tactic.FieldSimp
import Mathlib.Tactic.Linarith
import Motrix.Lib.Except
import Motrix.Stats.TransferStats

/-!
# The books of the transferred bytes

Every interval that is accepted adds whole bytes to the buckets it lies in and
leaves less than one byte behind.  The bytes are pending until they are
written, and then they are in the totals and in the buckets.
-/

namespace Motrix.TransferStats

open Lib Lib.Tally

def everything : Int → Bool :=
  fun _ => true

/-- The area under the speeds of the accepted intervals. -/
def integral (accepted : List Interval) : Amounts ℚ :=
  accepted.foldr
    (fun interval total => trapezoid interval.previous interval.sample + total) 0

def allocated (accepted : List Interval) : Deltas :=
  accepted.flatMap Interval.whole

/-- The bytes lie in the bucket of the start, and in the next one when the
interval ends there. -/
def Interval.Split (interval : Interval) : Prop :=
  ∃ bucket, bucket % bucketMs = 0 ∧ bucket ≤ interval.previous.wallMs ∧
    interval.previous.wallMs < bucket + bucketMs ∧
      ((interval.whole.map Prod.fst = [bucket] ∧
          interval.sample.wallMs ≤ bucket + bucketMs) ∨
        (interval.whole.map Prod.fst = [bucket, bucket + bucketMs] ∧
          bucket + bucketMs < interval.sample.wallMs ∧
            interval.sample.wallMs ≤ bucket + 2 * bucketMs))

/-- No pruning reached the buckets that are wanted. -/
def Kept (cutoffs : List Int) (wanted : Int → Bool) : Prop :=
  ∀ cutoff ∈ cutoffs, ∀ key, wanted key = true → cutoff ≤ key

structure Sound (first : Store) (world : World) : Prop where
  remainder : ∀ direction, 0 ≤ world.service.remainder direction ∧
    world.service.remainder direction < 1
  allocated : ∀ direction,
    (tally everything (allocated world.accepted) direction : ℚ) +
      world.service.remainder direction = integral world.accepted direction
  booked : ∀ wanted,
    tally wanted world.service.pending + tally wanted world.written =
      tally wanted (TransferStats.allocated world.accepted)
  totals : world.store.totals = first.totals + tally everything world.written
  buckets : ∀ wanted, Kept world.cutoffs wanted →
    tally wanted world.store.buckets =
      tally wanted first.buckets + tally wanted world.written
  split : ∀ interval ∈ world.accepted, interval.Split

variable {first store : Store} {world : World} {host : Host}

theorem Sound.withService {service : Service} (sound : Sound first world)
    (pending : service.pending = world.service.pending)
    (remainder : service.remainder = world.service.remainder) :
    Sound first (world.withService service) where
  remainder := remainder ▸ sound.remainder
  allocated := by
    intro direction
    have before := sound.allocated direction
    rw [← remainder] at before
    exact before
  booked := by
    intro wanted
    have before := sound.booked wanted
    rw [← pending] at before
    exact before
  totals := sound.totals
  buckets := sound.buckets
  split := sound.split

/-! ## Checkpoints -/

theorem isEmpty_iff {delta : Amounts Int} :
    isEmpty delta = true ↔ delta = 0 := by
  unfold isEmpty
  rw [Bool.and_eq_true, beq_iff_eq, beq_iff_eq]
  constructor
  · intro empty
    funext direction
    cases direction
    · exact empty.1
    · exact empty.2
  · intro empty
    rw [empty]
    exact ⟨rfl, rfl⟩

theorem foldl_everything {list : Deltas} :
    list.foldl (fun sum entry => sum + entry.2) 0 = tally everything list :=
  (@foldl_tally _ _ _ everything list 0).trans (zero_add _)

theorem upsertBuckets_tally {wanted : Int → Bool} {entries : Deltas} :
    ∀ {buckets final}, entries.foldlM upsertBucket buckets = .ok final →
      tally wanted final = tally wanted buckets + tally wanted entries := by
  induction entries with
  | nil =>
      intro buckets final done
      cases done
      exact (add_zero _).symm
  | cons entry rest induction =>
      intro buckets final done
      rw [List.foldlM_cons] at done
      obtain ⟨next, upserted, done⟩ := bind_eq_ok.mp done
      obtain ⟨_, -, upserted⟩ := bind_eq_ok.mp upserted
      obtain ⟨_, -, upserted⟩ := bind_eq_ok.mp upserted
      cases upserted
      rw [induction done, tally_credit, tally, add_assoc]

/-- What a checkpoint that succeeds writes. -/
theorem checkpoint_ok {deltas entries : Deltas} {next : Store} {updatedAt : Int}
    (done : checkpoint store deltas updatedAt = .ok (next, entries)) :
    (∀ wanted, tally wanted entries = tally wanted deltas) ∧
      next.totals = store.totals + tally everything deltas ∧
        ∀ wanted, tally wanted next.buckets =
          tally wanted store.buckets + tally wanted deltas := by
  have same : ∀ wanted, tally wanted
      (deltas.filter fun entry => !isEmpty entry.2) = tally wanted deltas := by
    intro wanted
    apply tally_filter
    intro entry _ dropped
    exact Or.inr (isEmpty_iff.mp (by simpa using dropped))
  obtain ⟨_, -, done⟩ := bind_eq_ok.mp done
  obtain ⟨_, -, done⟩ := bind_eq_ok.mp done
  simp only at done
  split at done
  · next nothing =>
      cases done
      have empty : ∀ wanted, tally wanted deltas = 0 := by
        intro wanted
        rw [← same, List.isEmpty_iff.mp nothing]
        rfl
      refine ⟨fun wanted => (empty wanted).symm, ?_, fun wanted => ?_⟩
      · rw [empty, add_zero]
      · rw [empty, add_zero]
  · obtain ⟨_, -, done⟩ := bind_eq_ok.mp done
    obtain ⟨_, -, done⟩ := bind_eq_ok.mp done
    obtain ⟨buckets, upserted, done⟩ := bind_eq_ok.mp done
    cases done
    have sorted : ∀ wanted, tally wanted
        ((deltas.filter fun entry => !isEmpty entry.2).mergeSort
          fun left right => left.1 ≤ right.1) = tally wanted deltas :=
      fun wanted => (tally_perm (List.mergeSort_perm _ _)).trans (same wanted)
    refine ⟨sorted, ?_, fun wanted => ?_⟩
    · rw [foldl_everything, same]
    · rw [upsertBuckets_tally upserted, sorted]

theorem settle_all (pending : Deltas) :
    pending.foldl World.settle pending = [] := by
  induction pending with
  | nil => rfl
  | cons entry rest induction =>
      have gone : World.settle (entry :: rest) entry = rest := by
        rw [World.settle, if_pos rfl, if_pos (isEmpty_iff.mpr (sub_self _))]
      rw [List.foldl_cons, gone, induction]

namespace Sound

theorem idle (sound : Sound first world) : Sound first world.idle :=
  sound.withService rfl rfl

theorem scheduleCheckpoint (sound : Sound first world) (host : Host)
    (retry : Bool) : Sound first (world.scheduleCheckpoint host retry) := by
  simp only [World.scheduleCheckpoint]
  split
  · exact sound
  · split
    · exact sound.idle
    · exact sound.withService rfl rfl

theorem commit {entries : Deltas} (sound : Sound first world)
    (done : world.commit host = .ok (store, entries)) :
    Sound first {
      world with
      store
      written := world.written ++ entries
      service := {
        world.service with
        pending := world.service.pending.foldl World.settle world.service.pending
        checkpointState := .idle
      }
    } := by
  have written : ∃ updatedAt,
      checkpoint world.store world.service.pending updatedAt =
        .ok (store, entries) := by
    unfold World.commit at done
    split at done
    · split at done
      · contradiction
      · exact ⟨_, done⟩
    · contradiction
  obtain ⟨updatedAt, written⟩ := written
  obtain ⟨same, totals, buckets⟩ := checkpoint_ok written
  refine ⟨sound.remainder, sound.allocated, ?_, ?_, ?_, sound.split⟩
  · intro wanted
    rw [settle_all, tally_append, same, ← sound.booked]
    exact (zero_add _).trans (add_comm _ _)
  · rw [totals, sound.totals, tally_append, same, add_assoc]
  · intro wanted kept
    rw [buckets, sound.buckets wanted kept, tally_append, same, add_assoc]

/-- A flush moves bytes or leaves them where they are. -/
theorem flushPending (sound : Sound first world) (host : Host)
    (retryOnFailure : Bool) :
    Sound first (world.flushPending host retryOnFailure).1 := by
  simp only [World.flushPending]
  split
  · exact sound.idle
  · split
    · next store entries done =>
        exact (sound.commit done).scheduleCheckpoint host false
    · split
      · exact sound.idle.scheduleCheckpoint host true
      · exact sound.idle

/-! ## Prunings -/

theorem maybePrune (sound : Sound first world) (host : Host) (wallMs : Int)
    (monotonicMs : ℚ) (force : Bool) :
    Sound first (world.maybePrune host wallMs monotonicMs force) := by
  simp only [World.maybePrune]
  split
  · exact sound
  · split
    · next store pruned =>
        split
        · exact sound.withService rfl rfl
        · obtain ⟨_, -, pruned⟩ := bind_eq_ok.mp pruned
          cases pruned
          refine ⟨sound.remainder, sound.allocated, sound.booked, sound.totals,
            ?_, sound.split⟩
          intro wanted kept
          obtain ⟨here, others⟩ := List.forall_mem_cons.mp kept
          refine Eq.trans (tally_filter ?_) (sound.buckets wanted others)
          intro entry _ dropped
          apply Or.inl
          apply Bool.eq_false_iff.mpr
          intro found
          exact absurd (here _ found) (of_decide_eq_false dropped)
    · exact sound.withService rfl rfl

end Sound

/-! ## Intervals -/

theorem foldl_addDelta {wanted : Int → Bool} {whole pending : Deltas} :
    tally wanted (whole.foldl addDelta pending) =
      tally wanted pending + tally wanted whole := by
  induction whole generalizing pending with
  | nil => exact (add_zero _).symm
  | cons entry rest induction =>
      have added : tally wanted (addDelta pending entry) = tally wanted pending +
          (if wanted entry.1 then entry.2 else 0) := by
        unfold addDelta
        split
        · next empty =>
            rw [isEmpty_iff.mp empty, ite_self, add_zero]
        · exact tally_credit _ _
      rw [List.foldl_cons, induction, added, tally, add_assoc]

def ratios (slices : List (Int × ℚ)) : ℚ :=
  slices.foldr (fun slice sum => slice.2 + sum) 0

/-- Whole bytes and the remainder make up what was to be allocated. -/
theorem allocateWholeBytes_sum (delta : Amounts ℚ) (direction : Direction)
    (slices : List (Int × ℚ)) :
    ∀ remainder : Amounts ℚ,
      (tally everything (allocateWholeBytes delta remainder slices).1
          direction : ℚ) +
        (allocateWholeBytes delta remainder slices).2 direction =
          remainder direction + delta direction * ratios slices := by
  induction slices with
  | nil =>
      intro remainder
      simp [allocateWholeBytes, tally, ratios]
  | cons slice rest induction =>
      intro remainder
      have later := induction fun direction =>
        remainder direction + delta direction * slice.2 -
          ⌊remainder direction + delta direction * slice.2⌋
      simp only [allocateWholeBytes, tally, everything, if_true, Pi.add_apply,
        Int.cast_add, ratios, List.foldr_cons] at later ⊢
      linarith

theorem allocateWholeBytes_remainder (delta : Amounts ℚ)
    (slices : List (Int × ℚ)) :
    ∀ remainder : Amounts ℚ,
      (∀ direction, 0 ≤ remainder direction ∧ remainder direction < 1) →
        ∀ direction,
          0 ≤ (allocateWholeBytes delta remainder slices).2 direction ∧
            (allocateWholeBytes delta remainder slices).2 direction < 1 := by
  induction slices with
  | nil => exact fun remainder proper => proper
  | cons slice rest induction =>
      intro remainder proper
      apply induction
      intro direction
      exact ⟨Int.fract_nonneg _, Int.fract_lt_one _⟩

theorem allocateWholeBytes_keys (delta : Amounts ℚ)
    (slices : List (Int × ℚ)) :
    ∀ remainder, (allocateWholeBytes delta remainder slices).1.map Prod.fst =
      slices.map Prod.fst := by
  induction slices with
  | nil => exact fun remainder => rfl
  | cons slice rest induction =>
      intro remainder
      rw [allocateWholeBytes, List.map_cons, induction, List.map_cons]

theorem buildSlices_ratios {startMs endMs : Int} (later : startMs < endMs) :
    ratios (buildSlices startMs endMs (endMs - startMs)) = 1 := by
  have length : ((endMs - startMs : Int) : ℚ) ≠ 0 := by
    apply Int.cast_ne_zero.mpr
    omega
  simp only [buildSlices]
  split
  · simp [ratios]
  · simp only [ratios, List.foldr_cons, List.foldr_nil, add_zero]
    rw [← add_div, ← Int.cast_add, div_eq_one_iff_eq length]
    congr 1
    omega

/-- An interval of at most six seconds lies in one bucket or in two. -/
theorem count_split {previous sample : Sample} (world : World)
    (short : sample.wallMs ≤ previous.wallMs + bucketMs) :
    Interval.Split ⟨previous, sample, (allocateWholeBytes
      (trapezoid previous sample) world.service.remainder
        (buildSlices previous.wallMs sample.wallMs
          (sample.wallMs - previous.wallMs))).1⟩ := by
  have positive : bucketMs = 900000 := rfl
  have begins : previous.wallMs / bucketMs * bucketMs ≤ previous.wallMs :=
    Int.ediv_mul_le _ (by decide)
  have ends : previous.wallMs <
      previous.wallMs / bucketMs * bucketMs + bucketMs := by
    rw [mul_comm]
    exact Int.lt_mul_ediv_self_add (by decide)
  refine ⟨floorToBucket previous.wallMs, Int.mul_emod_left _ _, begins, ends, ?_⟩
  rw [allocateWholeBytes_keys]
  simp only [buildSlices]
  split
  · next inside => exact Or.inl ⟨rfl, inside⟩
  · next outside =>
      unfold floorToBucket at outside ⊢
      exact Or.inr ⟨rfl, by omega, by omega⟩

section Accepted

variable {previous sample : Sample}
  (moves : ¬ (sample.monotonicMs - previous.monotonicMs ≤ 0 ∨
    sample.wallMs - previous.wallMs ≤ 0 ∨
      |((sample.wallMs - previous.wallMs : Int) : ℚ) -
        (sample.monotonicMs - previous.monotonicMs)| > maxWallMonotonicDriftMs))

include moves

theorem accepted_later : previous.wallMs < sample.wallMs := by
  have ahead := (not_or.mp (not_or.mp moves).2).1
  omega

theorem accepted_short
    (near : ¬ sample.monotonicMs - previous.monotonicMs >
      maxSampleGapSeconds * 1000) :
    sample.wallMs ≤ previous.wallMs + bucketMs := by
  have drift := abs_le.mp (not_lt.mp (not_or.mp (not_or.mp moves).2).2)
  have bound : ((sample.wallMs - previous.wallMs : Int) : ℚ) ≤
      ((6000 : Int) : ℚ) := by
    simp only [maxWallMonotonicDriftMs] at drift
    simp only [maxSampleGapSeconds] at near
    push_cast at drift ⊢
    linarith [drift.2, not_lt.mp near]
  have most := Int.cast_le.mp bound
  have large : bucketMs = 900000 := rfl
  omega

end Accepted

namespace Sound

theorem count {previous sample : Sample} (sound : Sound first world)
    (later : previous.wallMs < sample.wallMs)
    (short : sample.wallMs ≤ previous.wallMs + bucketMs) :
    Sound first (world.count previous sample) where
  remainder := allocateWholeBytes_remainder _ _ _ sound.remainder
  allocated := by
    intro direction
    have before := sound.allocated direction
    have added := allocateWholeBytes_sum (trapezoid previous sample) direction
      (buildSlices previous.wallMs sample.wallMs
        (sample.wallMs - previous.wallMs)) world.service.remainder
    rw [buildSlices_ratios later, mul_one] at added
    simp only [World.count, TransferStats.allocated, List.flatMap_cons,
      tally_append, Pi.add_apply, Int.cast_add, integral,
      List.foldr_cons] at before added ⊢
    linarith
  booked := by
    intro wanted
    simp only [World.count, TransferStats.allocated, List.flatMap_cons,
      tally_append, foldl_addDelta]
    rw [add_right_comm, sound.booked, add_comm]
    rfl
  totals := sound.totals
  buckets := sound.buckets
  split :=
    List.forall_mem_cons.mpr ⟨count_split world short, sound.split⟩

/-! ## Events -/

theorem forget (sound : Sound first world) : Sound first world.forget :=
  sound.withService rfl rfl

theorem cancelTimer (sound : Sound first world) :
    Sound first world.cancelTimer :=
  sound.withService rfl rfl

theorem remember (sound : Sound first world) (sample : Sample) :
    Sound first (world.remember sample) :=
  sound.withService rfl rfl

theorem seen (sound : Sound first world) (sample : Sample) :
    Sound first (world.seen sample) :=
  sound.withService rfl rfl

theorem recordSample (sound : Sound first world) (host : Host)
    (sample : Sample) : Sound first (world.recordSample host sample) := by
  simp only [World.recordSample]
  split
  · exact (sound.remember sample).seen sample
  · next previous _ =>
      split
      · exact sound.remember sample
      · next moves =>
          split
          · exact ((sound.remember sample).seen sample).maybePrune host _ _ false
          · next near =>
              have counted := (((sound.remember sample).seen sample).maybePrune
                host sample.wallMs sample.monotonicMs false).count
                  (accepted_later moves) (accepted_short moves near)
              split
              · exact counted
              · exact counted.scheduleCheckpoint host false

theorem step (sound : Sound first world) (event : Event × Host) :
    Sound first (TransferStats.step world event) := by
  obtain ⟨event, host⟩ := event
  cases event with
  | record reading =>
      simp only [TransferStats.step, World.record]
      split
      · exact sound
      · split
        · exact sound.forget
        · exact sound.recordSample host _
  | markGap flush =>
      simp only [TransferStats.step, World.markGap]
      split
      · exact (sound.cancelTimer.flushPending host true).forget
      · exact sound.forget
  | timerFires =>
      simp only [TransferStats.step, World.timerFires]
      split
      · apply idle
        exact sound.withService rfl rfl
      · apply flushPending
        exact sound.withService rfl rfl
  | dispose =>
      simp only [TransferStats.step, World.dispose]
      split
      · exact sound
      · have flushed := (sound.cancelTimer.flushPending host false).forget
        apply cancelTimer
        exact flushed.withService rfl rfl

theorem run (events : List (Event × Host)) :
    ∀ {world}, Sound first world →
      Sound first (TransferStats.run world events) := by
  induction events with
  | nil => exact fun sound => sound
  | cons event rest induction =>
      exact fun sound => induction (sound.step event)

theorem construct (store : Store) (host : Host) (reading : Reading) :
    Sound store (TransferStats.construct store host reading) := by
  have blank : ∀ service : Service, service.pending = [] →
      service.remainder = 0 → Sound store ⟨service, store, [], [], []⟩ := by
    intro service pending remainder
    refine ⟨?_, ?_, ?_, (add_zero _).symm, fun _ _ => (add_zero _).symm,
      by simp⟩
    · rw [remainder]
      exact fun _ => ⟨le_refl _, zero_lt_one⟩
    · rw [remainder]
      exact fun _ => add_zero _
    · rw [pending]
      exact fun _ => add_zero _
  simp only [TransferStats.construct]
  split
  · exact (blank _ rfl rfl).maybePrune host _ _ true
  · exact blank _ rfl rfl

end Sound

/-! ## Every run -/

/-- Nothing is lost and nothing is counted twice. -/
structure Conserves (first : Store) (world : World) : Prop where
  total : ∀ direction,
    world.store.totals direction +
        tally everything world.service.pending direction =
      first.totals direction + ⌊integral world.accepted direction⌋
  split : ∀ interval ∈ world.accepted, interval.Split
  booked : ∀ wanted,
    tally wanted world.service.pending + tally wanted world.written =
      tally wanted (allocated world.accepted)
  written : world.store.totals = first.totals + tally everything world.written
  today : ∀ dayStartMs dayEndMs snapshot,
    world.snapshot dayStartMs dayEndMs = .ok snapshot →
      snapshot.today.bytes =
          tally (inDay dayStartMs dayEndMs) world.store.buckets +
            tally (inDay dayStartMs dayEndMs) world.service.pending ∧
        (Kept world.cutoffs (inDay dayStartMs dayEndMs) →
          snapshot.today.bytes =
            tally (inDay dayStartMs dayEndMs) first.buckets +
              tally (inDay dayStartMs dayEndMs) (allocated world.accepted)) ∧
          snapshot.allTime.bytes =
            world.store.totals + tally everything world.service.pending

theorem filter_inDay {dayStartMs dayEndMs : Int} {list : Deltas} :
    tally everything (list.filter fun row =>
        dayStartMs ≤ row.1 && row.1 < dayEndMs) =
      tally (inDay dayStartMs dayEndMs) list :=
  @tally_wanted _ _ _ (inDay dayStartMs dayEndMs) list

/-- What a snapshot adds up. -/
theorem snapshot_bytes {dayStartMs dayEndMs : Int} {snapshot : Snapshot}
    (taken : world.snapshot dayStartMs dayEndMs = .ok snapshot) :
    snapshot.today.bytes =
        tally (inDay dayStartMs dayEndMs) world.store.buckets +
          tally (inDay dayStartMs dayEndMs) world.service.pending ∧
      snapshot.allTime.bytes =
        world.store.totals + tally everything world.service.pending := by
  obtain ⟨_, -, taken⟩ := bind_eq_ok.mp taken
  obtain ⟨buckets, rows, taken⟩ := bind_eq_ok.mp taken
  obtain ⟨_, -, rows⟩ := bind_eq_ok.mp rows
  obtain ⟨_, -, rows⟩ := bind_eq_ok.mp rows
  cases taken
  split at rows
  · contradiction
  · cases rows
    simp only [serializeRange, foldl_tally, foldl_everything, filter_inDay]
    exact ⟨trivial, trivial⟩

theorem Sound.conserves (sound : Sound first world) :
    Conserves first world where
  total := by
    intro direction
    have books := congrFun (sound.booked everything) direction
    have persisted := congrFun sound.totals direction
    have whole : ⌊integral world.accepted direction⌋ =
        tally everything (TransferStats.allocated world.accepted) direction := by
      rw [Int.floor_eq_iff, ← sound.allocated direction]
      have bounds := sound.remainder direction
      exact ⟨by linarith, by linarith⟩
    rw [whole, ← books, persisted, Pi.add_apply, Pi.add_apply]
    abel
  split := sound.split
  booked := sound.booked
  written := sound.totals
  today := by
    intro dayStartMs dayEndMs snapshot taken
    obtain ⟨today, allTime⟩ := snapshot_bytes taken
    refine ⟨today, ?_, allTime⟩
    intro kept
    rw [today, sound.buckets _ kept, ← sound.booked]
    abel

end Motrix.TransferStats
