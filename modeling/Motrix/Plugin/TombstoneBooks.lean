import Mathlib.Logic.Equiv.List
import Motrix.Plugin.PostRepository

/-!
# The books of the rejections

Every rejection and every pruned receipt is counted in one bucket.  Buckets
are folded into rollups and rollups into the overflow bucket; what was counted
stays counted, with the first and the last time at which it happened.
-/

namespace Motrix.PostDelivery

open Lib

/-! ## What the buckets hold -/

/-- A bucket counts what happened at some times, and spans them. -/
structure Holds (bucket : QuotaBucket) (times : List Int) : Prop where
  count : bucket.rejectedCount = times.length
  first : bucket.firstAt ∈ times
  last : bucket.lastAt ∈ times
  spans : ∀ time ∈ times, bucket.firstAt ≤ time ∧ time ≤ bucket.lastAt

theorem merge_span (old incoming : QuotaBucket) :
    (old.merge incoming).firstAt = min old.firstAt incoming.firstAt ∧
      (old.merge incoming).lastAt = max old.lastAt incoming.lastAt :=
  ⟨rfl, rfl⟩

theorem Holds.merge {old incoming : QuotaBucket} {part times : List Int}
    (first : Holds old part) (second : Holds incoming times) :
    Holds (old.merge incoming) (part ++ times) := by
  obtain ⟨least, greatest⟩ := merge_span old incoming
  constructor
  · rw [List.length_append, ← first.count, ← second.count]
    rfl
  · have either : (old.merge incoming).firstAt = old.firstAt ∨
        (old.merge incoming).firstAt = incoming.firstAt := by omega
    rcases either with same | same <;> rw [same, List.mem_append]
    · exact .inl first.first
    · exact .inr second.first
  · have either : (old.merge incoming).lastAt = old.lastAt ∨
        (old.merge incoming).lastAt = incoming.lastAt := by omega
    rcases either with same | same <;> rw [same, List.mem_append]
    · exact .inl first.last
    · exact .inr second.last
  · intro time member
    rcases List.mem_append.mp member with here | there
    · have within := first.spans time here
      omega
    · have within := second.spans time there
      omega

/-- The buckets share all times among them. -/
def Accounted : List QuotaBucket → List Int → Prop
  | [], times => times = []
  | bucket :: rest, times => ∃ part others, Holds bucket part ∧
      Accounted rest others ∧ (part ++ others).Perm times

theorem Accounted.perm {buckets : List QuotaBucket} {times others : List Int}
    (accounted : Accounted buckets times) (same : times.Perm others) :
    Accounted buckets others := by
  cases buckets with
  | nil =>
      cases accounted
      exact same.nil_eq.symm
  | cons bucket rest =>
      obtain ⟨part, left, holds, counted, shared⟩ := accounted
      exact ⟨part, left, holds, counted, shared.trans same⟩

theorem accounted_split {front back : List QuotaBucket} {bucket : QuotaBucket}
    {times : List Int} :
    Accounted (front ++ bucket :: back) times ↔ ∃ part rest,
      Holds bucket part ∧ Accounted (front ++ back) rest ∧
        (part ++ rest).Perm times := by
  induction front generalizing times with
  | nil => rfl
  | cons head front induction =>
      constructor
      · rintro ⟨mine, others, holds, counted, shared⟩
        obtain ⟨part, rest, taken, left, parts⟩ := induction.mp counted
        refine ⟨part, mine ++ rest, taken,
          ⟨mine, rest, holds, left, .refl _⟩, ?_⟩
        rw [← List.append_assoc]
        refine (List.perm_append_comm.append_right rest).trans ?_
        rw [List.append_assoc]
        exact (parts.append_left mine).trans shared
      · rintro ⟨part, rest, taken, ⟨mine, others, holds, counted, shared⟩,
          parts⟩
        refine ⟨mine, part ++ others, holds,
          induction.mpr ⟨part, others, taken, counted, .refl _⟩, ?_⟩
        rw [← List.append_assoc]
        refine (List.perm_append_comm.append_right others).trans ?_
        rw [List.append_assoc]
        exact (shared.append_left part).trans parts

theorem Accounted.total {buckets : List QuotaBucket} {times : List Int}
    (accounted : Accounted buckets times) :
    Table.total QuotaBucket.rejectedCount buckets = times.length := by
  induction buckets generalizing times with
  | nil =>
      cases accounted
      rfl
  | cons bucket rest induction =>
      obtain ⟨part, others, holds, counted, shared⟩ := accounted
      rw [← shared.length_eq, List.length_append, ← holds.count,
        ← induction counted]
      rfl

/-! ## The keys of the buckets -/

def rawKey (pluginId hook reason : String) (day : Int) : String :=
  pluginId ++ ":" ++ hook ++ ":" ++ reason ++ ":" ++ toString day

/-- What is assumed of the hash: the keys that are hashed do not collide, and
it is written without a colon. -/
structure Hashes (host : RepositoryHost) : Prop where
  apart : ∀ first second, 512 < byteLength first → 512 < byteLength second →
    host.sha256Hex first = host.sha256Hex second → first = second
  plain : ∀ text, ':' ∉ (host.sha256Hex text).toList

theorem tombstoneKey_rawKey (host : RepositoryHost)
    (pluginId hook reason : String) (day : Int) :
    tombstoneKey host pluginId hook reason day =
      if byteLength (rawKey pluginId hook reason day) ≤ 512 then
        rawKey pluginId hook reason day
      else "hashed:" ++ host.sha256Hex (rawKey pluginId hook reason day) :=
  rfl

theorem rawKey_colons (pluginId hook reason : String) (day : Int) :
    3 ≤ (rawKey pluginId hook reason day).toList.count ':' := by
  have colon : ":".toList.count ':' = 1 := by decide
  simp only [rawKey, String.toList_append, List.count_append, colon]
  omega

theorem hashed_colons {host : RepositoryHost} (hashes : Hashes host)
    (text : String) :
    ("hashed:" ++ host.sha256Hex text).toList.count ':' = 1 := by
  rw [String.toList_append, List.count_append,
    List.count_eq_zero_of_not_mem (hashes.plain text)]
  decide

theorem lastPart {front last : String} (clean : ':' ∉ last.toList) :
    (front ++ ":" ++ last).toList.reverse.takeWhile (· != ':') =
      last.toList.reverse := by
  have passes : ∀ letter ∈ last.toList.reverse, (letter != ':') = true := by
    intro letter member
    exact bne_iff_ne.mpr fun same =>
      clean (same ▸ List.mem_reverse.mp member)
  simp only [String.toList_append, List.reverse_append]
  rw [List.takeWhile_append_of_pos passes]
  simp

/-- No day from the first one on is written like the day of a rollup. -/
theorem rawKey_ne {pluginId hook reason pluginId' hook' reason' : String}
    {day : Int} (daily : 0 ≤ day) :
    rawKey pluginId hook reason day ≠ rawKey pluginId' hook' reason' (-1) := by
  intro same
  obtain ⟨number, rfl⟩ := Int.eq_ofNat_of_zero_le daily
  have digits : ∀ letter ∈ (toString (number : Int)).toList,
      letter.isDigit = true := by
    intro letter member
    rw [Int.toString_eq_repr, Int.repr_eq_if, if_pos daily,
      Nat.repr_eq_ofList_toDigits, String.toList_ofList] at member
    exact Nat.isDigit_of_mem_toDigits (by decide) (by decide) member
  have clean : ':' ∉ (toString (number : Int)).toList := fun member =>
    absurd (digits ':' member) (by decide)
  have parts := congrArg
    (fun text => text.toList.reverse.takeWhile (· != ':')) same
  have rollup : (toString (-1 : Int)).toList = ['-', '1'] := by decide
  simp only [rawKey] at parts
  rw [lastPart clean, lastPart (by rw [rollup]; decide), rollup] at parts
  have minus : '-' ∈ (toString (number : Int)).toList :=
    List.mem_reverse.mp (parts ▸ by decide)
  exact absurd (digits '-' minus) (by decide)

theorem tombstoneKey_ne {host : RepositoryHost} (hashes : Hashes host)
    {pluginId hook reason pluginId' hook' reason' : String} {day : Int}
    (daily : 0 ≤ day) :
    tombstoneKey host pluginId hook reason day ≠
      tombstoneKey host pluginId' hook' reason' (-1) := by
  have apart := @rawKey_ne pluginId hook reason pluginId' hook' reason' day
    daily
  rw [tombstoneKey_rawKey, tombstoneKey_rawKey]
  split
  · split
    · exact apart
    · intro same
      have colons := rawKey_colons pluginId hook reason day
      rw [same, hashed_colons hashes] at colons
      omega
  · rename_i long
    split
    · intro same
      have colons := rawKey_colons pluginId' hook' reason' (-1)
      rw [← same, hashed_colons hashes] at colons
      omega
    · rename_i long'
      intro same
      rw [String.append_right_inj] at same
      exact apart (hashes.apart _ _ (Nat.lt_of_not_le long)
        (Nat.lt_of_not_le long') same)

/-! ## One bucket into another -/

variable {host : RepositoryHost} {buckets : List QuotaBucket}
  {times part : List Int} {incoming : QuotaBucket}

/-- The buckets as they are kept, and the times that they share. -/
structure Books (host : RepositoryHost) (buckets : List QuotaBucket)
    (times : List Int) : Prop where
  distinct : Table.Distinct QuotaBucket.bucketKey buckets
  keyed : ∀ bucket ∈ buckets, bucket.bucketKey =
    tombstoneKey host bucket.pluginId bucket.hook bucket.reason
      bucket.bucketDay
  accounted : Accounted buckets times

theorem upsertBucket_cases
    (distinct : Table.Distinct QuotaBucket.bucketKey buckets)
    (incoming : QuotaBucket) :
    (∃ front old back, buckets = front ++ old :: back ∧
      old.bucketKey = incoming.bucketKey ∧
      upsertBucket buckets incoming = front ++ old.merge incoming :: back) ∨
    (∀ bucket ∈ buckets, bucket.bucketKey ≠ incoming.bucketKey) ∧
      upsertBucket buckets incoming = buckets ++ [incoming] := by
  by_cases present :
      buckets.any (·.bucketKey == incoming.bucketKey) = true
  · left
    obtain ⟨old, inside, same⟩ := List.any_eq_true.mp present
    have key : old.bucketKey = incoming.bucketKey := beq_iff_eq.mp same
    obtain ⟨front, back, split, _, changed⟩ := distinct.split inside
    refine ⟨front, old, back, split, key, ?_⟩
    rw [upsertBucket, if_pos present, ← changed (·.merge incoming), ← key]
    exact congrArg (Table.rewrite · _ _) (funext fun _ => beq_eq_decide _ _)
  · right
    refine ⟨fun bucket inside same => present ?_, if_neg present⟩
    exact List.any_eq_true.mpr ⟨bucket, inside, beq_iff_eq.mpr same⟩

theorem Books.upsert (books : Books host buckets times)
    (holds : Holds incoming part)
    (key : incoming.bucketKey = tombstoneKey host incoming.pluginId
      incoming.hook incoming.reason incoming.bucketDay) :
    Books host (upsertBucket buckets incoming) (part ++ times) := by
  rcases upsertBucket_cases books.distinct incoming with
    ⟨front, old, back, split, same, changed⟩ | ⟨fresh, changed⟩
  · obtain ⟨mine, rest, holds', accounted, shared⟩ :=
      accounted_split.mp (split ▸ books.accounted)
    rw [changed]
    constructor
    · have distinct := books.distinct
      rw [split] at distinct
      simpa [Table.Distinct, QuotaBucket.merge] using distinct
    · intro bucket inside
      rcases List.mem_append.mp inside with before | inside
      · exact books.keyed bucket
          (split ▸ List.mem_append_left _ before)
      · rcases List.mem_cons.mp inside with rfl | after
        · exact books.keyed old
            (split ▸ List.mem_append_right _ List.mem_cons_self)
        · exact books.keyed bucket
            (split ▸ List.mem_append_right _ (List.mem_cons_of_mem _ after))
    · refine accounted_split.mpr
        ⟨mine ++ part, rest, holds'.merge holds, accounted, ?_⟩
      refine (List.perm_append_comm.append_right rest).trans ?_
      rw [List.append_assoc]
      exact shared.append_left part
  · rw [changed]
    constructor
    · exact books.distinct.concat fresh
    · intro bucket inside
      rcases List.mem_append.mp inside with old | new
      · exact books.keyed bucket old
      · rw [List.mem_singleton.mp new]
        exact key
    · exact accounted_split.mpr ⟨part, times, holds,
        by rw [List.append_nil]; exact books.accounted, .refl _⟩

theorem mem_upsert {bucket : QuotaBucket}
    (apart : bucket.bucketKey ≠ incoming.bucketKey)
    (inside : bucket ∈ buckets) :
    bucket ∈ upsertBucket buckets incoming := by
  unfold upsertBucket
  split
  · exact Table.mem_rewrite.mpr ⟨bucket, inside, if_neg (by simpa)⟩
  · exact List.mem_append_left _ inside

theorem Books.remove (books : Books host buckets times)
    {bucket : QuotaBucket} (inside : bucket ∈ buckets) : ∃ part rest,
      Holds bucket part ∧ (part ++ rest).Perm times ∧
        Books host (Table.remove QuotaBucket.bucketKey bucket.bucketKey
          buckets) rest := by
  obtain ⟨front, back, split, removed, _⟩ := books.distinct.split inside
  obtain ⟨part, rest, holds, accounted, shared⟩ :=
    accounted_split.mp (split ▸ books.accounted)
  refine ⟨part, rest, holds, shared, books.distinct.remove _, ?_, ?_⟩
  · exact fun other left => books.keyed other (Table.mem_remove.mp left).1
  · rw [removed]
    exact accounted

theorem remove_upsert {key : String} (apart : incoming.bucketKey ≠ key) :
    Table.remove QuotaBucket.bucketKey key (upsertBucket buckets incoming) =
      upsertBucket (Table.remove QuotaBucket.bucketKey key buckets)
        incoming := by
  have present : (Table.remove QuotaBucket.bucketKey key buckets).any
      (·.bucketKey == incoming.bucketKey) =
        buckets.any (·.bucketKey == incoming.bucketKey) := by
    rw [Bool.eq_iff_iff, List.any_eq_true, List.any_eq_true]
    constructor
    · rintro ⟨bucket, inside, same⟩
      exact ⟨bucket, (Table.mem_remove.mp inside).1, same⟩
    · rintro ⟨bucket, inside, same⟩
      exact ⟨bucket, Table.mem_remove.mpr
        ⟨inside, (beq_iff_eq.mp same).trans_ne apart⟩, same⟩
  unfold upsertBucket
  rw [present]
  split
  · unfold Table.remove Table.rewrite
    rw [List.filter_map]
    congr 2
    funext bucket
    simp only [Function.comp_apply]
    split <;> rfl
  · unfold Table.remove
    rw [List.filter_append, List.filter_cons_of_pos (by simpa using apart),
      List.filter_nil]

/-- What an insertion does to a number of buckets that a merge leaves. -/
theorem upsert_count {counts : QuotaBucket → Bool}
    (kept : ∀ old, counts (QuotaBucket.merge old incoming) = counts old)
    (distinct : Table.Distinct QuotaBucket.bucketKey buckets) :
    (upsertBucket buckets incoming).countP counts ≤
        buckets.countP counts + (counts incoming).toNat ∧
      ((∃ bucket ∈ buckets, bucket.bucketKey = incoming.bucketKey) →
        (upsertBucket buckets incoming).countP counts =
          buckets.countP counts) := by
  rcases upsertBucket_cases distinct incoming with
    ⟨front, old, back, split, same, changed⟩ | ⟨fresh, changed⟩
  · have equal : (upsertBucket buckets incoming).countP counts =
        buckets.countP counts := by
      rw [changed, split]
      simp only [List.countP_append, List.countP_cons, kept]
    exact ⟨by omega, fun _ => equal⟩
  · constructor
    · rw [changed, List.countP_append]
      cases counted : counts incoming <;> simp [counted]
    · rintro ⟨bucket, inside, same⟩
      exact absurd same (fresh bucket inside)

theorem remove_count {counts : QuotaBucket → Bool} {bucket : QuotaBucket}
    (distinct : Table.Distinct QuotaBucket.bucketKey buckets)
    (inside : bucket ∈ buckets) :
    (Table.remove QuotaBucket.bucketKey bucket.bucketKey buckets).countP
        counts + (counts bucket).toNat = buckets.countP counts := by
  obtain ⟨front, back, split, removed, _⟩ := distinct.split inside
  rw [removed, split, List.countP_append, List.countP_append,
    List.countP_cons]
  cases counts bucket
  · exact Nat.add_zero _
  · exact Nat.add_assoc _ _ _

/-! ## Folding -/

/-- The buckets with one of them folded into a rollup. -/
def foldOne (host : RepositoryHost) (buckets : List QuotaBucket)
    (pluginId reason : String) (oldest : QuotaBucket) : List QuotaBucket :=
  Table.remove QuotaBucket.bucketKey oldest.bucketKey
    (mergeRollup host buckets pluginId reason oldest)

/-- What a rollup takes over from a bucket. -/
def rollup (host : RepositoryHost) (pluginId reason : String)
    (row : QuotaBucket) : QuotaBucket :=
  { row with
    bucketKey := tombstoneKey host pluginId "all" reason (-1)
    pluginId := pluginId
    hook := "all"
    reason := reason
    bucketDay := -1 }

variable {pluginId reason : String} {oldest : QuotaBucket}

theorem foldOne_eq
    (apart : tombstoneKey host pluginId "all" reason (-1) ≠
      oldest.bucketKey) :
    foldOne host buckets pluginId reason oldest =
      upsertBucket (Table.remove QuotaBucket.bucketKey oldest.bucketKey
        buckets) (rollup host pluginId reason oldest) :=
  remove_upsert apart

theorem foldOne_books (books : Books host buckets times)
    (inside : oldest ∈ buckets)
    (apart : tombstoneKey host pluginId "all" reason (-1) ≠
      oldest.bucketKey) :
    Books host (foldOne host buckets pluginId reason oldest) times := by
  obtain ⟨part, rest, holds, shared, left⟩ := books.remove inside
  have moved : Holds (rollup host pluginId reason oldest) part :=
    ⟨holds.count, holds.first, holds.last, holds.spans⟩
  rw [foldOne_eq apart]
  have after := left.upsert moved rfl
  exact ⟨after.distinct, after.keyed, after.accounted.perm shared⟩

/-- The number of buckets of a kind falls by the one that was folded, if it
was of that kind, unless the rollup is of it too. -/
theorem foldOne_count {counts : QuotaBucket → Bool}
    (books : Books host buckets times) (inside : oldest ∈ buckets)
    (apart : tombstoneKey host pluginId "all" reason (-1) ≠
      oldest.bucketKey)
    (kept : ∀ old, counts (QuotaBucket.merge old
      (rollup host pluginId reason oldest)) = counts old)
    (other : counts (rollup host pluginId reason oldest) = false) :
    (foldOne host buckets pluginId reason oldest).countP counts +
      (counts oldest).toNat ≤ buckets.countP counts := by
  have removed := @remove_count _ counts _ books.distinct inside
  have inserted := (upsert_count kept
    (books.distinct.remove oldest.bucketKey)).1
  rw [foldOne_eq apart]
  rw [other] at inserted
  simp only [Bool.toNat_false, Nat.add_zero] at inserted
  omega

def isDaily (pluginId reason : String) (bucket : QuotaBucket) : Bool :=
  bucket.pluginId == pluginId && bucket.reason == reason &&
    decide (0 ≤ bucket.bucketDay)

theorem isDaily_merge (wanted cause : String) (old next : QuotaBucket) :
    isDaily wanted cause (old.merge next) = isDaily wanted cause old :=
  rfl

theorem rollup_not_daily (wanted cause : String) :
    isDaily wanted cause (rollup host pluginId reason oldest) = false := by
  simp [isDaily, rollup]

/-- The daily buckets that are folded are folded one after another. -/
theorem folded_books (hashes : Hashes host) {folded : List QuotaBucket}
    (books : Books host buckets times)
    (daily : ∀ bucket ∈ folded, bucket ∈ buckets ∧
      isDaily pluginId reason bucket = true)
    (distinct : Table.Distinct QuotaBucket.bucketKey folded) :
    Books host (folded.foldl (foldOne host · pluginId reason ·) buckets)
        times ∧
      ∀ wanted cause,
        (folded.foldl (foldOne host · pluginId reason ·) buckets).countP
            (isDaily wanted cause) + folded.countP (isDaily wanted cause) ≤
          buckets.countP (isDaily wanted cause) := by
  induction folded generalizing buckets with
  | nil => exact ⟨books, fun _ _ => Nat.le_refl _⟩
  | cons oldest rest induction =>
      obtain ⟨fresh, distinct'⟩ := List.nodup_cons.mp distinct
      obtain ⟨inside, isOld⟩ := daily oldest List.mem_cons_self
      have apart : ∀ bucket ∈ buckets, isDaily pluginId reason bucket = true →
          tombstoneKey host pluginId "all" reason (-1) ≠
            bucket.bucketKey := by
        intro bucket among isDaily'
        rw [books.keyed bucket among]
        simp only [isDaily, Bool.and_eq_true, decide_eq_true_eq] at isDaily'
        exact (tombstoneKey_ne hashes isDaily'.2).symm
      have next := foldOne_books books inside (apart oldest inside isOld)
      have counts := fun wanted cause =>
        foldOne_count books inside (apart oldest inside isOld)
          (fun old => isDaily_merge wanted cause old _)
          (rollup_not_daily wanted cause)
      have later : ∀ bucket ∈ rest,
          bucket ∈ foldOne host buckets pluginId reason oldest ∧
            isDaily pluginId reason bucket = true := by
        intro bucket among
        obtain ⟨there, isDaily'⟩ := daily bucket (List.mem_cons_of_mem _ among)
        refine ⟨?_, isDaily'⟩
        rw [foldOne_eq (apart oldest inside isOld)]
        apply mem_upsert (apart bucket there isDaily').symm
        refine Table.mem_remove.mpr ⟨there, fun same => fresh ?_⟩
        exact List.mem_map.mpr ⟨bucket, among, same⟩
      obtain ⟨kept, fewer⟩ := induction next later distinct'
      refine ⟨kept, fun wanted cause => ?_⟩
      have counted := counts wanted cause
      have rest' := fewer wanted cause
      rw [List.countP_cons]
      simp only [List.foldl_cons]
      cases mine : isDaily wanted cause oldest <;>
        simp [mine] at counted ⊢ <;> omega

theorem foldDaily_books (hashes : Hashes host)
    (books : Books host buckets times) (pluginId reason : String) :
    Books host (foldDailyTombstones host buckets pluginId reason) times ∧
      (foldDailyTombstones host buckets pluginId reason).countP
          (isDaily pluginId reason) < POST_DELIVERY_DAILY_BUCKETS_PER_REASON ∧
      ∀ wanted cause,
        (foldDailyTombstones host buckets pluginId reason).countP
            (isDaily wanted cause) ≤ buckets.countP (isDaily wanted cause) := by
  let daily := (buckets.filter (isDaily pluginId reason)).mergeSort
    fun left right => left.bucketDay < right.bucketDay ||
      (left.bucketDay == right.bucketDay && left.bucketKey ≤ right.bucketKey)
  let folded := daily.take
    (daily.length + 1 - POST_DELIVERY_DAILY_BUCKETS_PER_REASON)
  have sorted : daily.Perm (buckets.filter (isDaily pluginId reason)) :=
    List.mergeSort_perm _ _
  have listed : ∀ bucket ∈ folded, bucket ∈ buckets ∧
      isDaily pluginId reason bucket = true := by
    intro bucket member
    exact List.mem_filter.mp (sorted.mem_iff.mp (List.mem_of_mem_take member))
  have distinct : Table.Distinct QuotaBucket.bucketKey folded := by
    have all : Table.Distinct QuotaBucket.bucketKey daily :=
      (sorted.map _).nodup_iff.mpr
        (books.distinct.sublist (List.filter_sublist.map _))
    exact all.sublist ((List.take_sublist _ _).map _)
  obtain ⟨kept, fewer⟩ := folded_books hashes books listed distinct
  have fold : foldDailyTombstones host buckets pluginId reason =
      folded.foldl (foldOne host · pluginId reason ·) buckets := rfl
  rw [fold]
  refine ⟨kept, ?_, fun wanted cause =>
    Nat.le_trans (Nat.le_add_right _ _) (fewer wanted cause)⟩
  have all : folded.countP (isDaily pluginId reason) = folded.length :=
    List.countP_eq_length.mpr fun bucket member => (listed bucket member).2
  have length : folded.length =
      daily.length + 1 - POST_DELIVERY_DAILY_BUCKETS_PER_REASON := by
    have size : POST_DELIVERY_DAILY_BUCKETS_PER_REASON = 32 := rfl
    rw [List.length_take, size]
    omega
  have counted : daily.length = buckets.countP (isDaily pluginId reason) := by
    rw [sorted.length_eq, List.countP_eq_length_filter]
  have bound := fewer pluginId reason
  have size : POST_DELIVERY_DAILY_BUCKETS_PER_REASON = 32 := rfl
  omega

/-! ## The overflow bucket -/

def isOther (host : RepositoryHost) (bucket : QuotaBucket) : Bool :=
  bucket.bucketKey != overflowKey host

/-- The bucket that is folded next when there are too many. -/
def oldestOther (host : RepositoryHost) (buckets : List QuotaBucket) :
    Option QuotaBucket :=
  firstBy (fun left right => left.lastAt < right.lastAt ||
      (left.lastAt == right.lastAt && left.bucketKey < right.bucketKey))
    (buckets.filter (isOther host))

/-- The loop that makes room, with what it returns. -/
inductive CapacityLoop (host : RepositoryHost) :
    List QuotaBucket → Bool × List QuotaBucket → Prop where
  | room {buckets : List QuotaBucket}
      (fits : buckets.length < POST_DELIVERY_GLOBAL_TOMBSTONE_BUCKETS) :
      CapacityLoop host buckets (false, buckets)
  | full {buckets : List QuotaBucket}
      (crowded : ¬buckets.length < POST_DELIVERY_GLOBAL_TOMBSTONE_BUCKETS)
      (single : oldestOther host buckets = none) :
      CapacityLoop host buckets (true, buckets)
  | turn {buckets : List QuotaBucket} {oldest : QuotaBucket}
      {result : Bool × List QuotaBucket}
      (crowded : ¬buckets.length < POST_DELIVERY_GLOBAL_TOMBSTONE_BUCKETS)
      (chosen : oldestOther host buckets = some oldest)
      (rest : CapacityLoop host
        (foldOne host buckets "__global__" "bucket_overflow" oldest) result) :
      CapacityLoop host buckets result

theorem few_without_others (books : Books host buckets times)
    (single : oldestOther host buckets = none) : buckets.length ≤ 1 := by
  have all := firstBy_none single
  rw [List.filter_eq_nil_iff] at all
  have same : ∀ bucket ∈ buckets, bucket.bucketKey = overflowKey host := by
    intro bucket inside
    simpa [isOther] using all bucket inside
  have distinct := books.distinct
  cases buckets with
  | nil => exact Nat.zero_le _
  | cons first rest =>
      cases rest with
      | nil => exact Nat.le_refl _
      | cons second rest =>
          have keys := (List.nodup_cons.mp distinct).1
          refine absurd (List.mem_map.mpr ⟨second, List.mem_cons_self, ?_⟩) keys
          rw [same first List.mem_cons_self,
            same second (List.mem_cons_of_mem _ List.mem_cons_self)]

/-- As many turns as there are other buckets leave room for one more. -/
theorem ensureCapacity_books (books : Books host buckets times)
    {turns : Nat} (enough : buckets.countP (isOther host) < turns) :
    ∃ room, ensureTombstoneCapacity host turns buckets = (false, room) ∧
      CapacityLoop host buckets (false, room) ∧
      room.length < POST_DELIVERY_GLOBAL_TOMBSTONE_BUCKETS ∧
      Books host room times ∧
      ∀ wanted cause, room.countP (isDaily wanted cause) ≤
        buckets.countP (isDaily wanted cause) := by
  induction turns generalizing buckets with
  | zero => cases enough
  | succ turns induction =>
      by_cases fits :
          buckets.length < POST_DELIVERY_GLOBAL_TOMBSTONE_BUCKETS
      · exact ⟨buckets, if_pos fits, .room fits, fits, books,
          fun _ _ => Nat.le_refl _⟩
      · cases chosen : oldestOther host buckets with
        | none =>
            have few := few_without_others books chosen
            have size : POST_DELIVERY_GLOBAL_TOMBSTONE_BUCKETS = 8192 := rfl
            omega
        | some oldest =>
            have inside := List.mem_filter.mp (firstBy_mem chosen)
            have apart : overflowKey host ≠ oldest.bucketKey :=
              (bne_iff_ne.mp inside.2).symm
            have next := foldOne_books books inside.1 apart
            have fewer := @foldOne_count host buckets times _ _ oldest
              (isOther host) books inside.1 apart (fun _ => rfl)
              (bne_self_eq_false _)
            rw [inside.2] at fewer
            obtain ⟨room, result, loop, left, kept, counts⟩ :=
              induction next (by simp only [Bool.toNat_true] at fewer; omega)
            refine ⟨room, ?_, .turn fits chosen loop, left, kept,
              fun wanted cause => ?_⟩
            · rw [ensureTombstoneCapacity, if_neg fits]
              dsimp only
              split
              · next missing => cases missing.symm.trans chosen
              · next found isFound =>
                  cases isFound.symm.trans chosen
                  exact result
            · have daily := foldOne_count books inside.1 apart
                (fun old => isDaily_merge wanted cause old _)
                (rollup_not_daily wanted cause)
              exact Nat.le_trans (counts wanted cause)
                (Nat.le_trans (Nat.le_add_right _ _) daily)

/-! ## Recording -/

/-- The books with their bounds. -/
structure BucketsKept (host : RepositoryHost) (buckets : List QuotaBucket)
    (times : List Int) : Prop where
  books : Books host buckets times
  total : buckets.length ≤ POST_DELIVERY_GLOBAL_TOMBSTONE_BUCKETS
  daily : ∀ pluginId reason, buckets.countP (isDaily pluginId reason) ≤
    POST_DELIVERY_DAILY_BUCKETS_PER_REASON

theorem single_holds {bucket : QuotaBucket} {time : Int}
    (count : bucket.rejectedCount = 1) (first : bucket.firstAt = time)
    (last : bucket.lastAt = time) : Holds bucket [time] where
  count := count
  first := List.mem_singleton.mpr first
  last := List.mem_singleton.mpr last
  spans other member := by
    rw [List.mem_singleton.mp member, first, last]
    exact ⟨Int.le_refl _, Int.le_refl _⟩

theorem recordTombstone_kept (hashes : Hashes host)
    (kept : BucketsKept host buckets times) (pluginId : String)
    (hook : PostHookName) (occurrenceId : String) (createdAt : Int)
    (reason : String) :
    BucketsKept host (recordTombstone host buckets pluginId hook occurrenceId
      createdAt reason).2 (createdAt :: times) := by
  let bucket : QuotaBucket :=
    { bucketKey := tombstoneKey host pluginId hook.text reason
        (createdAt / 86400000)
      pluginId := pluginId
      hook := hook.text
      reason := reason
      bucketDay := createdAt / 86400000
      rejectedCount := 1
      firstOccurrenceId := occurrenceId
      lastOccurrenceId := occurrenceId
      firstAt := createdAt
      lastAt := createdAt }
  have holds : Holds bucket [createdAt] := single_holds rfl rfl rfl
  by_cases already : buckets.any (·.bucketKey == bucket.bucketKey) = true
  · have recorded : (recordTombstone host buckets pluginId hook occurrenceId
        createdAt reason).2 = upsertBucket buckets bucket := by
      simp only [recordTombstone]
      rw [if_pos already, if_pos already]
      rfl
    have present : ∃ old ∈ buckets, old.bucketKey = bucket.bucketKey := by
      simpa using already
    rw [recorded]
    constructor
    · exact kept.books.upsert holds rfl
    · have same := (@upsert_count _ bucket (fun _ => true) (fun _ => rfl)
        kept.books.distinct).2 present
      rw [List.countP_true] at same
      rw [same]
      exact kept.total
    · intro wanted cause
      have same := (upsert_count (isDaily_merge wanted cause · bucket)
        kept.books.distinct).2 present
      rw [same]
      exact kept.daily wanted cause
  · obtain ⟨folded, few, fewer⟩ :=
      foldDaily_books hashes kept.books pluginId reason
    have enough := Nat.lt_succ_of_le (List.countP_le_length
      (p := isOther host)
      (l := foldDailyTombstones host buckets pluginId reason))
    obtain ⟨room, made, _, fits, books, counts⟩ :=
      ensureCapacity_books folded enough
    have recorded : (recordTombstone host buckets pluginId hook occurrenceId
        createdAt reason).2 = upsertBucket room bucket := by
      simp only [recordTombstone]
      rw [if_neg already, if_neg already, made]
      rfl
    rw [recorded]
    constructor
    · exact books.upsert holds rfl
    · have more := (@upsert_count _ bucket (fun _ => true) (fun _ => rfl)
        books.distinct).1
      rw [List.countP_true] at more
      exact more.trans fits
    · intro wanted cause
      have more := (upsert_count (isDaily_merge wanted cause · bucket)
        books.distinct).1
      have before := kept.daily wanted cause
      have left := counts wanted cause
      have left' := fewer wanted cause
      cases mine : isDaily wanted cause bucket with
      | false =>
          simp only [mine, Bool.toNat_false] at more
          omega
      | true =>
          simp only [mine, Bool.toNat_true] at more
          have same : wanted = pluginId ∧ cause = reason := by
            simp only [isDaily, Bool.and_eq_true, beq_iff_eq] at mine
            exact ⟨mine.1.1.symm, mine.1.2.symm⟩
          rw [same.1, same.2] at more left ⊢
          omega

/-! ## Whole histories -/

/-- A rejected admission, or a terminal receipt that was pruned. -/
inductive TombstoneEvent where
  | rejected (admission : PostDeliveryAdmission) (reason : String)
  | pruned (row : RawDeliveryRow) (reason : String) (now : Int)

def TombstoneEvent.time : TombstoneEvent → Int
  | rejected admission _ => admission.createdAt
  | pruned _ _ now => now

namespace PostDatabase

def tombstoneStep (host : RepositoryHost) (db : PostDatabase) :
    TombstoneEvent → PostDatabase
  | .rejected admission reason =>
      { db with
        buckets := (recordTombstone host db.buckets
          admission.executable.pluginId admission.hook admission.occurrenceId
          admission.createdAt reason).2 }
  | .pruned row reason now => db.pruneTerminalRow host row reason now

def tombstoneRun (host : RepositoryHost) (db : PostDatabase)
    (events : List TombstoneEvent) : PostDatabase :=
  events.foldl (tombstoneStep host) db

/-- A rejection of the repository is a step. -/
theorem admitOrTombstone_rejected {quota : PostDeliveryQuotaConfig}
    {db next : PostDatabase} {capacity : PostDeliveryDatabaseCapacity}
    {admission : PostDeliveryAdmission}
    {reason : PostDeliveryAdmissionReason} {key : String}
    (decided : db.admitOrTombstone host quota capacity admission =
      .ok (.rejected reason key, next)) :
    next = db.tombstoneStep host (.rejected admission reason.text) := by
  unfold admitOrTombstone at decided
  split at decided
  · cases decided
  · cases rejected : db.admissionRejection quota capacity admission with
    | error problem =>
        rw [rejected] at decided
        cases decided
    | ok answer =>
        rw [rejected] at decided
        cases answer with
        | none =>
            cases inserted : db.insertAdmission host quota admission <;>
              simp [inserted, bind, Except.bind, pure, Except.pure] at decided
        | some cause =>
            cases decided
            rfl

theorem tombstoneRun_kept (hashes : Hashes host) {db : PostDatabase}
    (kept : BucketsKept host db.buckets times) (events : List TombstoneEvent) :
    BucketsKept host (db.tombstoneRun host events).buckets
      ((events.map TombstoneEvent.time).reverse ++ times) := by
  induction events generalizing db times with
  | nil => exact kept
  | cons event rest induction =>
      have next : BucketsKept host (db.tombstoneStep host event).buckets
          (event.time :: times) := by
        cases event with
        | rejected admission reason =>
            exact recordTombstone_kept hashes kept _ _ _ _ _
        | pruned row reason now =>
            exact recordTombstone_kept hashes kept _ _ _ _ _
      simpa [tombstoneRun] using induction next

theorem empty_kept : BucketsKept host [] [] where
  books :=
    { distinct := List.nodup_nil
      keyed := fun _ member => absurd member List.not_mem_nil
      accounted := rfl }
  total := Nat.zero_le _
  daily _ _ := Nat.zero_le _

/-- After any rejections and prunes the buckets count all of them, stay within
their bounds and span the times of what they hold; and the loop that makes
room ends for whatever is rejected next. -/
theorem tombstones_kept (host : RepositoryHost) (hashes : Hashes host)
    (start : PostDatabase) (empty : start.buckets = [])
    (events : List TombstoneEvent) :
    Table.total QuotaBucket.rejectedCount
        (start.tombstoneRun host events).buckets = events.length ∧
      (start.tombstoneRun host events).buckets.length ≤
        POST_DELIVERY_GLOBAL_TOMBSTONE_BUCKETS ∧
      (∀ pluginId reason, (start.tombstoneRun host events).buckets.countP
          (isDaily pluginId reason) ≤
        POST_DELIVERY_DAILY_BUCKETS_PER_REASON) ∧
      Accounted (start.tombstoneRun host events).buckets
        (events.map TombstoneEvent.time) ∧
      ∀ pluginId reason,
        let folded := foldDailyTombstones host
          (start.tombstoneRun host events).buckets pluginId reason
        CapacityLoop host folded
          (ensureTombstoneCapacity host (folded.length + 1) folded) := by
  have kept := @tombstoneRun_kept host [] hashes start
    (by rw [empty]; exact empty_kept) events
  rw [List.append_nil] at kept
  refine ⟨?_, kept.total, kept.daily,
    kept.books.accounted.perm (List.reverse_perm _), ?_⟩
  · rw [kept.books.accounted.total, List.length_reverse, List.length_map]
  · intro pluginId reason folded
    obtain ⟨room, made, loop, _⟩ := ensureCapacity_books
      (foldDaily_books hashes kept.books pluginId reason).1
      (Nat.lt_succ_of_le List.countP_le_length)
    rw [made]
    exact loop

/-- A hash of texts to texts of one letter. -/
def unaryHost : RepositoryHost where
  sha256Hex text := String.ofList
    (List.replicate (Encodable.encode (text.toList.map Char.toNat)) 'a')

theorem unaryHost_hashes : Hashes unaryHost where
  apart first second _ _ same := by
    have lengths := congrArg (fun text => text.toList.length) same
    simp only [unaryHost, String.toList_ofList, List.length_replicate,
      Encodable.encode_inj] at lengths
    exact String.toList_inj.mp (List.map_injective_iff.mpr
      (fun _ _ => Char.toNat_inj.mp) lengths)
  plain text member := by
    simp only [unaryHost, String.toList_ofList] at member
    exact absurd (List.eq_of_mem_replicate member) (by decide)

def refusedAdmission (occurrenceId : String) (createdAt : Int) :
    PostDeliveryAdmission where
  deliveryId := occurrenceId
  deduplicationKey := occurrenceId
  hook := .onError
  executable :=
    { pluginId := "p"
      version := "1.0.0"
      digest := "d" }
  createdGeneration := 1
  requiredPermissions := []
  createdEffectivePermissions := []
  occurrenceId := occurrenceId
  taskId := "t"
  occurredAt := createdAt
  canonicalPayload := "\x7b\x7d"
  payloadBytes := 2
  permissionSnapshotBytes := 4
  reservedBytes := 518
  createdAt := createdAt
  initialStatus := .pending
  initialReason := none

theorem twoDays_kept :
    Table.total QuotaBucket.rejectedCount
      (({} : PostDatabase).tombstoneRun unaryHost
        [.rejected (refusedAdmission "o1" 86400000) "plugin_active_rows",
          .rejected (refusedAdmission "o2" 5)
            "plugin_active_rows"]).buckets = 2 :=
  (tombstones_kept unaryHost unaryHost_hashes {} rfl _).1

end PostDatabase

end Motrix.PostDelivery
