import Mathlib.Algebra.Order.Floor.Ring
import Mathlib.Algebra.Group.Pi.Basic
import Mathlib.Data.Rat.Floor
import Motrix.Lib.Tally

/-!
# Totals of what is transferred

Samples of the speed are integrated into whole bytes for buckets of a quarter
of an hour.  The bytes stay in memory until a checkpoint writes them to the
store.  Both directions are counted alike, and numbers are exact.
-/

namespace Motrix.TransferStats

open Lib.Tally

def bucketMs : Int :=
  15 * 60 * 1000

def retentionMs : Int :=
  90 * 24 * 60 * 60 * 1000

def pruneIntervalMs : ℚ :=
  24 * 60 * 60 * 1000

def maxSampleGapSeconds : ℚ :=
  5

def maxWallMonotonicDriftMs : ℚ :=
  1000

def minQueryRangeMs : Int :=
  22 * 60 * 60 * 1000

def maxQueryRangeMs : Int :=
  26 * 60 * 60 * 1000

inductive Direction where
  | download
  | upload
  deriving DecidableEq, Repr

/-- A number for each direction. -/
abbrev Amounts (α : Type) :=
  Direction → α

/-- Deltas under the starts of their buckets. -/
abbrev Deltas :=
  List (Int × Amounts Int)

def isEmpty (delta : Amounts Int) : Bool :=
  delta .download == 0 && delta .upload == 0

/-! ## The store -/

structure Store where
  trackingStartedAt : Int
  updatedAt : Option Int
  totals : Amounts Int
  buckets : Deltas

def isSafeInteger (value : Int) : Bool :=
  value.natAbs ≤ 2 ^ 53 - 1

def requireSafeTimestamp (value : Int) (label : String) : Except String Unit :=
  if isSafeInteger value then .ok ()
  else .error (label ++ " must be a safe integer timestamp")

def requireDelta (entry : Int × Amounts Int) : Except String Unit :=
  if 0 ≤ entry.2 .download ∧ 0 ≤ entry.2 .upload then .ok ()
  else .error s!"Transfer delta for bucket {entry.1} must contain non-negative bigint values"

def requireEntry (entry : Int × Amounts Int) : Except String Unit := do
  requireSafeTimestamp entry.1 "bucketStartMs"
  if entry.1 % bucketMs != 0 then
    .error s!"bucketStartMs must align to {bucketMs} milliseconds"
  else requireDelta entry

/-- What a column can hold, and a statement can bind. -/
def fits (amounts : Amounts Int) : Bool :=
  [Direction.download, .upload].all fun direction =>
    0 ≤ amounts direction && amounts direction ≤ 2 ^ 63 - 1

def storable (amounts : Amounts Int) : Except String Unit :=
  if fits amounts then .ok () else .error "CHECK constraint failed"

def upsertBucket (buckets : Deltas) (entry : Int × Amounts Int) :
    Except String Deltas := do
  storable entry.2
  storable ((buckets.lookup entry.1).getD 0 + entry.2)
  return credit entry.1 entry.2 buckets

/-- The store after the transaction, and what was written to its buckets. -/
def checkpoint (store : Store) (deltas : Deltas) (updatedAt : Int) :
    Except String (Store × Deltas) := do
  requireSafeTimestamp updatedAt "updatedAt"
  let _ ← deltas.mapM requireEntry
  let entries := deltas.filter fun entry => !isEmpty entry.2
  if entries.isEmpty then return (store, [])
  let total := entries.foldl (fun sum entry => sum + entry.2) 0
  let entries := entries.mergeSort fun left right => left.1 ≤ right.1
  storable total
  storable (store.totals + total)
  let buckets ← entries.foldlM upsertBucket store.buckets
  return ({
    store with
    totals := store.totals + total
    updatedAt := some updatedAt
    buckets
  }, entries)

def readBuckets (store : Store) (fromMs toMs : Int) : Except String Deltas := do
  requireSafeTimestamp fromMs "fromMs"
  requireSafeTimestamp toMs "toMs"
  if toMs ≤ fromMs then .error "toMs must be greater than fromMs"
  else return store.buckets.filter fun row => fromMs ≤ row.1 && row.1 < toMs

def pruneBefore (store : Store) (cutoffMs : Int) : Except String Store := do
  requireSafeTimestamp cutoffMs "cutoffMs"
  return {
    store with
    buckets := store.buckets.filter fun row => cutoffMs ≤ row.1
  }

/-! ## The service -/

structure Sample where
  wallMs : Int
  monotonicMs : ℚ
  speed : Amounts ℚ

/-- Clocks and speeds as read; what is not finite, or no integer where one is
needed, is nothing. -/
structure Reading where
  wallMs : Option Int
  monotonicMs : Option ℚ
  speed : Amounts (Option ℚ)

inductive CheckpointState where
  | idle
  | scheduled
  | flushing
  | retryScheduled
  deriving DecidableEq, Repr

structure Service where
  previousSample : Option Sample
  pending : Deltas
  remainder : Amounts ℚ
  timerArmed : Bool
  checkpointState : CheckpointState
  latestValidSampleAt : Option Int
  lastPruneAttemptMonotonicMs : Option ℚ
  disposed : Bool

/-- An interval whose bytes were counted, and where to. -/
structure Interval where
  previous : Sample
  sample : Sample
  whole : Deltas

/-- The service and its store, with all intervals that were accepted, all
increments of buckets that were written, and all prunings. -/
structure World where
  service : Service
  store : Store
  accepted : List Interval
  written : Deltas
  cutoffs : List Int

/-- What of the host fails during a call. -/
structure Host where
  databaseFails : Bool
  pruneFails : Bool
  setTimerThrows : Bool
  wallNow : Option Int
  deriving DecidableEq, Repr

def sampleOf (reading : Reading) : Option Sample := do
  let wallMs ← reading.wallMs
  let monotonicMs ← reading.monotonicMs
  let download ← reading.speed .download
  let upload ← reading.speed .upload
  if isSafeInteger wallMs ∧ 0 ≤ download ∧ 0 ≤ upload then
    some {
      wallMs
      monotonicMs
      speed := fun
        | .download => download
        | .upload => upload
    }
  else none

def floorToBucket (timestamp : Int) : Int :=
  timestamp / bucketMs * bucketMs

def addDelta (target : Deltas) (entry : Int × Amounts Int) : Deltas :=
  if isEmpty entry.2 then target else credit entry.1 entry.2 target

/-- Buckets and what part of the interval lies in them. -/
def buildSlices (startWallMs endWallMs wallDeltaMs : Int) : List (Int × ℚ) :=
  let firstBucketStart := floorToBucket startWallMs
  let boundary := firstBucketStart + bucketMs
  if boundary ≥ endWallMs then [(firstBucketStart, 1)]
  else [
    (firstBucketStart, ((boundary - startWallMs : Int) : ℚ) / wallDeltaMs),
    (boundary, ((endWallMs - boundary : Int) : ℚ) / wallDeltaMs)
  ]

/-- The whole bytes of each slice, and the remainder behind them. -/
def allocateWholeBytes (delta : Amounts ℚ) :
    Amounts ℚ → List (Int × ℚ) → Deltas × Amounts ℚ
  | remainder, [] => ([], remainder)
  | remainder, slice :: rest =>
      let withCarry : Amounts ℚ := fun direction =>
        remainder direction + delta direction * slice.2
      let whole : Amounts Int := fun direction => ⌊withCarry direction⌋
      let later := allocateWholeBytes delta
        (fun direction => withCarry direction - whole direction) rest
      ((slice.1, whole) :: later.1, later.2)

/-- The mean of both speeds for as long as the monotonic clock says. -/
def trapezoid (previous sample : Sample) : Amounts ℚ := fun direction =>
  (previous.speed direction + sample.speed direction) / 2 *
    ((sample.monotonicMs - previous.monotonicMs) / 1000)

namespace World

def withService (world : World) (service : Service) : World :=
  { world with service }

def idle (world : World) : World :=
  world.withService { world.service with checkpointState := .idle }

def scheduleCheckpoint (world : World) (host : Host) (retry : Bool) : World :=
  let service := world.service
  if service.disposed || service.pending.isEmpty || service.timerArmed then
    world
  else if host.setTimerThrows then world.idle
  else
    world.withService {
      service with
      timerArmed := true
      checkpointState := if retry then .retryScheduled else .scheduled
    }

def cancelTimer (world : World) : World :=
  world.withService {
    world.service with
    timerArmed := false
    checkpointState :=
      if world.service.checkpointState = .flushing then .flushing else .idle
  }

/-- What was committed leaves the bytes that are pending. -/
def settle (pending : Deltas) (committed : Int × Amounts Int) : Deltas :=
  match pending with
  | [] => []
  | entry :: rest =>
      if entry.1 = committed.1 then
        if isEmpty (entry.2 - committed.2) then rest
        else (entry.1, entry.2 - committed.2) :: rest
      else entry :: settle rest committed

def commit (world : World) (host : Host) : Except String (Store × Deltas) := do
  let some updatedAt := world.service.latestValidSampleAt <|> host.wallNow
    | .error "updatedAt must be a safe integer timestamp"
  if host.databaseFails then .error "database"
  else checkpoint world.store world.service.pending updatedAt

def flushPending (world : World) (host : Host) (retryOnFailure : Bool) :
    World × Bool :=
  let service := world.service
  if service.pending.isEmpty then (world.idle, true)
  else
    match world.commit host with
    | .ok (store, entries) =>
        let next := {
          world with
          store
          written := world.written ++ entries
          service := {
            service with
            pending := service.pending.foldl settle service.pending
            checkpointState := .idle
          }
        }
        (next.scheduleCheckpoint host false, true)
    | .error _ =>
        (if retryOnFailure then world.idle.scheduleCheckpoint host true
          else world.idle, false)

def maybePrune (world : World) (host : Host) (wallMs : Int) (monotonicMs : ℚ)
    (force : Bool) : World :=
  let recent := world.service.lastPruneAttemptMonotonicMs.any fun last =>
    monotonicMs - last < pruneIntervalMs
  if !isSafeInteger wallMs || !force && recent then world
  else
    let cutoff := floorToBucket (wallMs - retentionMs)
    let next := world.withService {
      world.service with
      lastPruneAttemptMonotonicMs := some monotonicMs
    }
    match pruneBefore world.store cutoff with
    | .ok store =>
        if host.pruneFails then next
        else { next with store, cutoffs := cutoff :: world.cutoffs }
    | .error _ => next

/-- The bytes of an accepted interval become pending. -/
def count (world : World) (previous sample : Sample) : World :=
  let slices := buildSlices previous.wallMs sample.wallMs
    (sample.wallMs - previous.wallMs)
  let whole := allocateWholeBytes (trapezoid previous sample)
    world.service.remainder slices
  {
    world with
    accepted := ⟨previous, sample, whole.1⟩ :: world.accepted
    service := {
      world.service with
      remainder := whole.2
      pending := whole.1.foldl addDelta world.service.pending
    }
  }

def remember (world : World) (sample : Sample) : World :=
  world.withService { world.service with previousSample := some sample }

def seen (world : World) (sample : Sample) : World :=
  world.withService {
    world.service with
    latestValidSampleAt := some sample.wallMs
  }

def recordSample (world : World) (host : Host) (sample : Sample) : World :=
  let next := world.remember sample
  match world.service.previousSample with
  | none => next.seen sample
  | some previous =>
      let monotonicDeltaMs := sample.monotonicMs - previous.monotonicMs
      let wallDeltaMs := sample.wallMs - previous.wallMs
      if monotonicDeltaMs ≤ 0 ∨ wallDeltaMs ≤ 0 ∨
          |(wallDeltaMs : ℚ) - monotonicDeltaMs| > maxWallMonotonicDriftMs then
        next
      else
        let next :=
          (next.seen sample).maybePrune host sample.wallMs sample.monotonicMs false
        if monotonicDeltaMs > maxSampleGapSeconds * 1000 then next
        else
          let next := next.count previous sample
          if next.service.pending.isEmpty then next
          else next.scheduleCheckpoint host false

def forget (world : World) : World :=
  world.withService { world.service with previousSample := none }

/-- Without a reading one of the clocks threw. -/
def record (world : World) (host : Host) (reading : Option Reading) : World :=
  if world.service.disposed then world
  else
    match reading.bind sampleOf with
    | none => world.forget
    | some sample => world.recordSample host sample

def markGap (world : World) (host : Host) (flush : Bool) : World :=
  if flush && !world.service.disposed then
    (world.cancelTimer.flushPending host true).1.forget
  else world.forget

def timerFires (world : World) (host : Host) : World :=
  let next := world.withService { world.service with timerArmed := false }
  if world.service.disposed then next.idle
  else (next.flushPending host true).1

def dispose (world : World) (host : Host) : World :=
  if world.service.disposed then world
  else
    let next := (world.cancelTimer.flushPending host false).1
    (next.forget.withService {
      next.forget.service with
      disposed := true
    }).cancelTimer

end World

/-! ## Runs -/

inductive Event where
  | record (reading : Option Reading)
  | markGap (flush : Bool)
  | timerFires
  | dispose

def step (world : World) : Event × Host → World
  | (.record reading, host) => world.record host reading
  | (.markGap flush, host) => world.markGap host flush
  | (.timerFires, host) => world.timerFires host
  | (.dispose, host) => world.dispose host

def run (world : World) (events : List (Event × Host)) : World :=
  events.foldl step world

/-- The constructor prunes the store whenever both clocks can be read. -/
def construct (store : Store) (host : Host) (reading : Reading) : World :=
  let world : World := {
    service := {
      previousSample := none
      pending := []
      remainder := 0
      timerArmed := false
      checkpointState := .idle
      latestValidSampleAt := none
      lastPruneAttemptMonotonicMs := none
      disposed := false
    }
    store
    accepted := []
    written := []
    cutoffs := []
  }
  match reading.wallMs, reading.monotonicMs with
  | some wallMs, some monotonicMs =>
      world.maybePrune host wallMs monotonicMs true
  | _, _ => world

/-! ## Snapshots -/

structure TransferRange where
  bytes : Amounts Int
  totalBytes : Int
  startedAt : Int
  endsAt : Option Int
  coverageStartedAt : Int

structure Snapshot where
  today : TransferRange
  allTime : TransferRange
  updatedAt : Option Int

def serializeRange (bytes : Amounts Int) (startedAt coverageStartedAt : Int)
    (endsAt : Option Int) : TransferRange where
  bytes := bytes
  totalBytes := bytes .download + bytes .upload
  startedAt := startedAt
  endsAt := endsAt
  coverageStartedAt := coverageStartedAt

def validateQueryRange (dayStartMs dayEndMs : Int) : Except String Unit :=
  if !isSafeInteger dayStartMs || !isSafeInteger dayEndMs then
    .error "Transfer query bounds must be safe integers"
  else if dayEndMs ≤ dayStartMs then
    .error "dayEndMs must be greater than dayStartMs"
  else if dayStartMs % bucketMs != 0 || dayEndMs % bucketMs != 0 then
    .error s!"Transfer query bounds must align to {bucketMs} milliseconds"
  else if dayEndMs - dayStartMs < minQueryRangeMs ||
      dayEndMs - dayStartMs > maxQueryRangeMs then
    .error "Transfer query range must be between 22 and 26 hours"
  else .ok ()

/-- A bucket starts on the day. -/
def inDay (dayStartMs dayEndMs bucketStartMs : Int) : Bool :=
  dayStartMs ≤ bucketStartMs && bucketStartMs < dayEndMs

def World.snapshot (world : World) (dayStartMs dayEndMs : Int) :
    Except String Snapshot := do
  validateQueryRange dayStartMs dayEndMs
  let store := world.store
  let buckets ← readBuckets store dayStartMs dayEndMs
  let today := buckets.foldl (fun sum bucket => sum + bucket.2) 0
  let pending := world.service.pending
  let pendingBytes := pending.foldl (fun sum entry => sum + entry.2) 0
  let today := pending.foldl (fun sum entry =>
    if inDay dayStartMs dayEndMs entry.1 then sum + entry.2 else sum) today
  let updatedAt :=
    match store.updatedAt, world.service.latestValidSampleAt with
    | none, latest => latest
    | some updatedAt, none => some updatedAt
    | some updatedAt, some latest => some (max updatedAt latest)
  return {
    today := serializeRange today dayStartMs
      (max dayStartMs store.trackingStartedAt) (some dayEndMs)
    allTime := serializeRange (store.totals + pendingBytes)
      store.trackingStartedAt store.trackingStartedAt none
    updatedAt
  }

end Motrix.TransferStats
