import Motrix.Activity.HistoryEvent

/-!
# The task activity store

The summaries and the history table of all tasks.  An operation that throws
rolls its transaction back and leaves the tables as they were.
-/

namespace Motrix.Activity

structure Seeding where
  activeMs : Nat
  trackingStartedAt : Nat
  deriving DecidableEq, Repr

structure Summary where
  trackingStartedAt : Nat
  coverageGapAt : Option Nat := none
  revision : Nat := 0
  lastEventOrdinal : Nat := 0
  activeMs : Nat := 0
  downloadActiveMs : Nat := 0
  seeding : Option Seeding
  estimatedDownloadBytes : Nat := 0
  estimatedUploadBytes : Nat := 0
  peakDownloadBps : Nat := 0
  peakUploadBps : Nat := 0
  rawSampleCount : Nat := 0
  historyDroppedCount : Nat := 0
  historyTruncatedAt : Option Nat := none
  updatedAt : Nat
  deriving DecidableEq, Repr

structure HistoryRow where
  eventId : Nat
  taskId : String
  event : TaskHistoryEvent
  deriving DecidableEq, Repr

structure TaskTransferSample where
  t : Nat
  down : Nat
  up : Nat
  flags : Nat
  deriving DecidableEq, Repr

structure ActivityDb where
  parents : List String
  summaries : String → Option Summary
  historyRows : List HistoryRow
  samples : String → List TaskTransferSample

def ActivityDb.empty : ActivityDb where
  parents := []
  summaries _ := none
  historyRows := []
  samples _ := []

def ActivityDb.setSummary (db : ActivityDb) (taskId : String)
    (summary : Summary) : ActivityDb :=
  { db with
    summaries := fun id => if id = taskId then some summary
      else db.summaries id }

inductive UpdateReason where
  | transition
  | checkpoint
  | coverageDegraded
  deriving DecidableEq, Repr

structure TaskActivityRevision where
  taskId : String
  revision : Nat
  reason : UpdateReason
  deriving DecidableEq, Repr

def maxTaskHistoryEvents : Nat := 512

def summaryMissing (taskId : String) : String :=
  "Task Inspector Activity summary is missing: " ++ taskId

def revisionExhausted : String :=
  "Task Inspector Activity revision is exhausted"

structure SaturatingSum where
  value : Nat
  saturated : Bool
  deriving DecidableEq, Repr

def saturatingAdd (limit current delta : Nat) : SaturatingSum :=
  if delta > limit - current then ⟨limit, true⟩ else ⟨current + delta, false⟩

def saturatingAddSafeInteger (current delta : Nat) : SaturatingSum :=
  saturatingAdd maxSafeInteger current delta

def saturatingAddSignedInt64 (current delta : Nat) : SaturatingSum :=
  saturatingAdd maxSignedInt64 current delta

def minimumTimestamp (current candidate : Option Nat) : Option Nat :=
  match candidate with
  | none => current
  | some candidate =>
      match current with
      | none => some candidate
      | some current => some (min current candidate)

/-- The rows hang on a task: without one the insert fails. -/
def ensureTask (db : ActivityDb) (taskId : String) (now : Nat) :
    Except String ActivityDb := do
  assertTaskId taskId
  assertPositiveSafeInteger now "now"
  if taskId ∈ db.parents then
    let summary := (db.summaries taskId).getD
      { trackingStartedAt := now
        seeding := none
        updatedAt := now }
    return db.setSummary taskId
      { summary with
        seeding := some (summary.seeding.getD
          { activeMs := 0
            trackingStartedAt := now }) }
  else
    throw "FOREIGN KEY constraint failed"

/-! ## Transitions -/

def ordinalLE (left right : HistoryRow) : Bool :=
  left.event.eventOrdinal ≤ right.event.eventOrdinal

def taskRows (db : ActivityDb) (taskId : String) : List HistoryRow :=
  db.historyRows.filter (·.taskId == taskId)

def readAllHistoryRows (db : ActivityDb) (taskId : String) :
    List HistoryRow :=
  (taskRows db taskId).mergeSort ordinalLE

/-- An integer primary key counts on from the largest one in the table. -/
def nextEventId (db : ActivityDb) : Nat :=
  db.historyRows.foldl (fun largest row => max largest row.eventId) 0 + 1

/-- Fills up the kept ids with the newest rows beside the added one. -/
def keepNewest (addedId : Nat) :
    List Nat → List HistoryRow → List Nat
  | keep, [] => keep
  | keep, row :: rows =>
      if row.eventId = addedId then
        keepNewest addedId keep rows
      else if keep.length ≥ maxTaskHistoryEvents then
        keep
      else
        keepNewest addedId (keep ++ [row.eventId]) rows

def keptIds (rows : List HistoryRow) : List Nat :=
  let added := ((rows.filter (·.event.kind == .added)).mergeSort
    ordinalLE).head?
  let descending := rows.mergeSort fun left right => ordinalLE right left
  match added with
  | some row => keepNewest row.eventId [row.eventId] descending
  | none => (descending.take maxTaskHistoryEvents).map (·.eventId)

/-- The rows that pruning deletes. -/
def pruneHistory (rows : List HistoryRow) : List HistoryRow :=
  rows.filter fun row => !(keptIds rows).contains row.eventId

def deleteRows (db : ActivityDb) (taskId : String)
    (dropped : List HistoryRow) : ActivityDb :=
  { db with
    historyRows := db.historyRows.filter fun row =>
      !(row.taskId == taskId &&
        (dropped.map (·.eventId)).contains row.eventId) }

/-- The event is there already, as it is or in conflict. -/
def checkRecorded (db : ActivityDb) (input : TaskHistoryEventInput) :
    Except String Bool :=
  let byOrdinal := (taskRows db input.taskId).find? fun row =>
    row.event.eventOrdinal == input.eventOrdinal
  let byKey := (taskRows db input.taskId).find? fun row =>
    row.event.eventKey == input.eventKey
  let matches' := fun found : Option HistoryRow => found.any fun row =>
    row.event.eventOrdinal == input.eventOrdinal &&
      row.event.eventKey == input.eventKey
  if byOrdinal.isSome || byKey.isSome then
    if matches' byOrdinal && matches' byKey then
      .ok true
    else
      .error "Task history event ordinal/key conflict"
  else
    .ok false

def insertEvent (db : ActivityDb) (input : TaskHistoryEventInput) :
    ActivityDb :=
  { db with
    historyRows := db.historyRows ++
      [{ eventId := nextEventId db
         taskId := input.taskId
         event := input.toTaskHistoryEvent }] }

def earliest (rows : List HistoryRow) : Option Nat :=
  (rows.map (·.event.occurredAt)).min?

def appendEvent (db : ActivityDb) (summary : Summary)
    (input : TaskHistoryEventInput) :
    Except String (Option TaskActivityRevision × ActivityDb) :=
  let inserted := insertEvent db input
  let retainedRows := readAllHistoryRows inserted input.taskId
  let droppedRows :=
    if retainedRows.length > maxTaskHistoryEvents then
      pruneHistory retainedRows
    else
      []
  let revision := saturatingAddSafeInteger summary.revision 1
  if revision.saturated then
    .error revisionExhausted
  else
    let updated :=
      { summary with
        revision := revision.value
        lastEventOrdinal := input.eventOrdinal
        historyDroppedCount := (saturatingAddSafeInteger
          summary.historyDroppedCount droppedRows.length).value
        historyTruncatedAt := minimumTimestamp summary.historyTruncatedAt
          (earliest droppedRows)
        updatedAt := input.occurredAt }
    .ok
      (some
        { taskId := input.taskId
          revision := revision.value
          reason := .transition },
      (deleteRows inserted input.taskId droppedRows).setSummary input.taskId
        updated)

def ordinalGap (expected received : Nat) : String :=
  "Task history ordinal gap: expected " ++ toString expected ++
    ", received " ++ toString received

def applyTransition (db : ActivityDb) (input : TaskHistoryEventInput) :
    Except String (Option TaskActivityRevision × ActivityDb) :=
  match db.summaries input.taskId with
  | none => .error (summaryMissing input.taskId)
  | some summary =>
      match checkRecorded db input with
      | .error message => .error message
      | .ok true => .ok (none, db)
      | .ok false =>
          if input.eventOrdinal ≤ summary.lastEventOrdinal then
            .ok (none, db)
          else if input.eventOrdinal ≠ summary.lastEventOrdinal + 1 then
            .error (ordinalGap (summary.lastEventOrdinal + 1)
              input.eventOrdinal)
          else
            appendEvent db summary input

def recordTransition (db : ActivityDb) (input : TaskHistoryEventInput) :
    Except String (Option TaskActivityRevision × ActivityDb) :=
  match validateHistoryEventInput input with
  | .error message => .error message
  | .ok () => applyTransition db input

/-! ## Checkpoints -/

structure TaskActivityCheckpoint where
  taskId : String
  updatedAt : Nat
  activeMsDelta : Nat
  downloadActiveMsDelta : Nat
  seedingMsDelta : Option Nat
  estimatedDownloadBytesDelta : Nat
  estimatedUploadBytesDelta : Nat
  peakDownloadBps : Nat
  peakUploadBps : Nat
  rawSampleCountDelta : Nat
  coverageGapAt : Option Nat
  samples : List TaskTransferSample
  deriving DecidableEq, Repr

def maxSampleFlags : Nat := 2147483647

def normalizeSpeed (value : Nat) (label : String) : Except String Unit :=
  if value > maxSafeInteger then
    .error (label ++ " exceeds the JavaScript safe integer range")
  else
    .ok ()

def sampleLabel (index : Nat) (field : String) : String :=
  "samples[" ++ toString index ++ "]." ++ field

def normalizeTransferSamples :
    Nat → List TaskTransferSample → Except String Unit
  | _, [] => .ok ()
  | index, sample :: samples => do
      assertPositiveSafeInteger sample.t (sampleLabel index "t")
      normalizeSpeed sample.down (sampleLabel index "down")
      normalizeSpeed sample.up (sampleLabel index "up")
      assertNonNegativeSafeInteger sample.flags (sampleLabel index "flags")
      if sample.flags > maxSampleFlags then
        throw (sampleLabel index "flags" ++ " exceeds the SQLite bound")
      normalizeTransferSamples (index + 1) samples

def validateCheckpoint (input : TaskActivityCheckpoint) :
    Except String Unit := do
  assertTaskId input.taskId
  assertPositiveSafeInteger input.updatedAt "updatedAt"
  assertNonNegativeSafeInteger input.activeMsDelta "activeMsDelta"
  assertNonNegativeSafeInteger (input.seedingMsDelta.getD 0) "seedingMsDelta"
  assertNonNegativeSafeInteger input.downloadActiveMsDelta
    "downloadActiveMsDelta"
  normalizeSpeed input.peakDownloadBps "peakDownloadBps"
  normalizeSpeed input.peakUploadBps "peakUploadBps"
  assertNonNegativeSafeInteger input.rawSampleCountDelta "rawSampleCountDelta"
  match input.coverageGapAt with
  | none => pure ()
  | some gapAt => assertPositiveSafeInteger gapAt "coverageGapAt"
  normalizeTransferSamples 0 input.samples

def upsertSample (samples : List TaskTransferSample)
    (sample : TaskTransferSample) : List TaskTransferSample :=
  if samples.any (·.t == sample.t) then
    samples.map fun other =>
      if other.t == sample.t then
        { sample with flags := other.flags ||| sample.flags }
      else
        other
  else
    samples ++ [sample]

def readSamples (samples : List TaskTransferSample) :
    List TaskTransferSample :=
  samples.mergeSort fun left right => left.t ≤ right.t

def maxPersistedTaskSamples : Nat := 96

def compactedTaskSampleCount : Nat := 72

/-- The chart points of a task.  Their compaction weighs points by areas in
floating point and is a parameter. -/
def persistSamples
    (compact : List TaskTransferSample → List TaskTransferSample)
    (stored added : List TaskTransferSample) :
    Except String (List TaskTransferSample) :=
  let samples := added.foldl upsertSample stored
  if samples.length > maxPersistedTaskSamples then
    let compacted := compact (readSamples samples)
    if compacted.length ≠ compactedTaskSampleCount then
      .error "Task sample compaction returned an invalid size"
    else
      .ok compacted
  else
    .ok samples

def applyCheckpoint
    (compact : List TaskTransferSample → List TaskTransferSample)
    (db : ActivityDb) (input : TaskActivityCheckpoint) :
    Except String (TaskActivityRevision × ActivityDb) :=
  match db.summaries input.taskId with
  | none => .error (summaryMissing input.taskId)
  | some summary =>
      let activeMs := saturatingAddSafeInteger summary.activeMs
        input.activeMsDelta
      let seedingMs := saturatingAddSafeInteger
        ((summary.seeding.map (·.activeMs)).getD 0)
        (input.seedingMsDelta.getD 0)
      let downloadActiveMs := saturatingAddSafeInteger
        summary.downloadActiveMs input.downloadActiveMsDelta
      let estimatedDownloadBytes := saturatingAddSignedInt64
        summary.estimatedDownloadBytes input.estimatedDownloadBytesDelta
      let estimatedUploadBytes := saturatingAddSignedInt64
        summary.estimatedUploadBytes input.estimatedUploadBytesDelta
      let rawSampleCount := saturatingAddSafeInteger summary.rawSampleCount
        input.rawSampleCountDelta
      let revision := saturatingAddSafeInteger summary.revision 1
      if revision.saturated then
        .error revisionExhausted
      else
        let saturated := activeMs.saturated || seedingMs.saturated ||
          downloadActiveMs.saturated || estimatedDownloadBytes.saturated ||
          estimatedUploadBytes.saturated || rawSampleCount.saturated
        let gapAt :=
          if saturated then
            some (min (input.coverageGapAt.getD input.updatedAt)
              input.updatedAt)
          else
            input.coverageGapAt
        match persistSamples compact (db.samples input.taskId)
            input.samples with
        | .error message => .error message
        | .ok samples =>
            let updated :=
              { summary with
                coverageGapAt := minimumTimestamp summary.coverageGapAt gapAt
                revision := revision.value
                activeMs := activeMs.value
                downloadActiveMs := downloadActiveMs.value
                seeding := summary.seeding.map fun seeding =>
                  { seeding with activeMs := seedingMs.value }
                estimatedDownloadBytes := estimatedDownloadBytes.value
                estimatedUploadBytes := estimatedUploadBytes.value
                peakDownloadBps :=
                  max summary.peakDownloadBps input.peakDownloadBps
                peakUploadBps := max summary.peakUploadBps input.peakUploadBps
                rawSampleCount := rawSampleCount.value
                updatedAt := input.updatedAt }
            let stored :=
              { db with
                samples := fun id => if id = input.taskId then samples
                  else db.samples id }
            .ok
              ({ taskId := input.taskId
                 revision := revision.value
                 reason :=
                  if saturated || input.coverageGapAt.isSome then
                    .coverageDegraded
                  else
                    .checkpoint },
              stored.setSummary input.taskId updated)

structure CheckpointOmission where
  taskId : String
  error : String
  deriving DecidableEq, Repr

structure CheckpointResult where
  revisions : List TaskActivityRevision := []
  omissions : List CheckpointOmission := []
  deriving DecidableEq, Repr

/-- All checkpoints in one transaction. -/
def applyAll
    (compact : List TaskTransferSample → List TaskTransferSample) :
    ActivityDb → List TaskActivityCheckpoint →
      Except String (List TaskActivityRevision × ActivityDb)
  | db, [] => .ok ([], db)
  | db, input :: inputs =>
      match applyCheckpoint compact db input with
      | .error message => .error message
      | .ok (revision, next) =>
          match applyAll compact next inputs with
          | .error message => .error message
          | .ok (revisions, last) => .ok (revision :: revisions, last)

/-- Each checkpoint in a transaction of its own. -/
def applyEach
    (compact : List TaskTransferSample → List TaskTransferSample) :
    ActivityDb → List TaskActivityCheckpoint → CheckpointResult × ActivityDb
  | db, [] => ({}, db)
  | db, input :: inputs =>
      match applyCheckpoint compact db input with
      | .error message =>
          let rest := applyEach compact db inputs
          ({ rest.1 with
             omissions := ⟨input.taskId, message⟩ :: rest.1.omissions },
           rest.2)
      | .ok (revision, next) =>
          let rest := applyEach compact next inputs
          ({ rest.1 with revisions := revision :: rest.1.revisions }, rest.2)

def prepareCheckpoints : List TaskActivityCheckpoint → Except String Unit
  | [] => .ok ()
  | input :: inputs => do
      validateCheckpoint input
      prepareCheckpoints inputs

def checkpointBatch
    (compact : List TaskTransferSample → List TaskTransferSample)
    (db : ActivityDb) (inputs : List TaskActivityCheckpoint) :
    Except String (CheckpointResult × ActivityDb) :=
  match prepareCheckpoints inputs with
  | .error message => .error message
  | .ok () =>
      match applyAll compact db inputs with
      | .ok (revisions, next) => .ok ({ revisions }, next)
      | .error _ => .ok (applyEach compact db inputs)

end Motrix.Activity
