import Motrix.Task.EngineSnapshot

/-!
# Engine snapshots merged into stored tasks

A poll overwrites the fields that the engine reports.  What it must keep is
listed in two other places: the fields handed to the terminal transition, and
the fields that are compared before the task is saved.
-/

namespace Motrix.EngineMerge

open TaskEnums (TaskKind TaskType TaskStatus TransitionPhase TaskInstancePhase
  DownloadErrorCode TaskSource)

def hasLegacyImport (task : DownloadTask) : Bool :=
  task.instances.any fun entry =>
    entry.payload.legacyImport || entry.payload.legacyHttpActivation

def hasRetainedHttpRequestContext (task : DownloadTask) : Bool :=
  !hasLegacyImport task && task.kind == .direct && task.type == .http &&
    task.transitionPhase == .idle && task.engineTaskId != "" &&
      (task.instances.find? fun entry => entry.phase = .httpDownload).any
        fun primary =>
          primary.gid == some task.engineTaskId && primary.uris.length == 1 &&
            primary.diskPath == task.diskPath &&
              primary.payload.engineContextVersion == some 1

def isDirectFinalOutput (task : DownloadTask) : Bool :=
  !hasLegacyImport task && task.kind == .direct &&
    (task.type == .http || task.type == .ftp) && task.diskPath != "" &&
      task.diskPath == task.finalPath && task.transitionPhase == .idle &&
        task.status != .finalizing &&
          task.instances.all fun entry =>
            entry.phase == .httpDownload &&
              (entry.gid == none || entry.gid == some task.engineTaskId) &&
                entry.transitionPhase == .idle

def isCompletedDirectOutput (task : DownloadTask) : Bool :=
  task.status == .completed && isDirectFinalOutput task

def accountedUpload (instances : List TaskInstance) (gid : String) :
    Option ℚ :=
  instances.findSome? fun entry => do
    let (holder, bytes) ← entry.payload.btFinalizeUpload
    if holder = gid then bytes else none

def unsettledBtUpload (instances : List TaskInstance) (gid : String)
    (uploadedBytes : ℚ) : ℚ :=
  max 0 (uploadedBytes - (accountedUpload instances gid).getD 0)

def nonZero (existing incoming : ℚ) : ℚ :=
  if incoming = 0 ∧ existing ≠ 0 then existing else incoming

/-- Zero never takes the place of what is not zero. -/
def nonZeroMerge (existing incoming : DownloadTask) : DownloadTask := {
  incoming with
  totalBytes := nonZero existing.totalBytes incoming.totalBytes
  downloadedBytes := nonZero existing.downloadedBytes incoming.downloadedBytes
  sizeWhenDone := nonZero existing.sizeWhenDone incoming.sizeWhenDone
  fileCount := nonZero existing.fileCount incoming.fileCount
  pieceLength := nonZero existing.pieceLength incoming.pieceLength
}

/-! ## The merge -/

/-- The task that is stored is returned as it is. -/
def retains (existing engineTask : DownloadTask) : Bool :=
  existing.storageOperation ||
    existing.engineTaskId == engineTask.engineTaskId &&
      existing.status == .error && engineTask.status == .paused &&
        hasRetainedHttpRequestContext existing ||
    existing.engineTaskId == engineTask.engineTaskId &&
      (isCompletedDirectOutput existing || hasLegacyImport existing &&
        [TaskStatus.completed, .error].contains existing.status)

def mergedProgress (protected' : DownloadTask) : ℚ :=
  if 0 < protected'.totalBytes then
    protected'.downloadedBytes / protected'.totalBytes
  else 0

def mergedUpload (existing engineTask : DownloadTask) : ℚ :=
  existing.uploadedBytesBaseline + unsettledBtUpload existing.instances
    engineTask.engineTaskId engineTask.uploadedBytes

/-- The application owns the status while a transition is under way. -/
def nextStatus (existing engineTask : DownloadTask) : TaskStatus :=
  if existing.transitionPhase ≠ .idle ∨ hasLegacyImport existing = true ∧
      existing.type = .http ∧ engineTask.status = .completed then
    existing.status
  else engineTask.status

def mergedUris (existing engineTask : DownloadTask) : List String :=
  if !hasLegacyImport existing && !engineTask.uris.isEmpty then engineTask.uris
  else existing.uris

def mergedBt (existing engineTask : DownloadTask) (uploadedBytes totalBytes : ℚ) :
    Option BtExtension :=
  (engineTask.bt <|> existing.bt).map fun bt =>
    let legacy := hasLegacyImport existing
    let stored {α : Type} (field : BtExtension → List α) : List α :=
      if legacy then (existing.bt.map field).getD [] else field bt
    {
      bt with
      isPrivate := (existing.bt.map BtExtension.isPrivate).getD bt.isPrivate
      selectedFiles := stored BtExtension.selectedFiles
      announceList := stored BtExtension.announceList
      trackers := stored BtExtension.trackers
      ratio := shareRatio uploadedBytes totalBytes
    }

/-- Instances follow a task that has ended. -/
def syncTerminalInstanceStatus (instances : List TaskInstance)
    (status : TaskStatus) : List TaskInstance :=
  if isTerminalTaskStatus status then
    instances.map fun entry => { entry with status }
  else instances

def mergeReport (existing engineTask : DownloadTask) (now : ℚ) :
    DownloadTask :=
  let protected' := nonZeroMerge existing engineTask
  let terminalFields := applyTerminalTransition existing.toTerminalFields
    (nextStatus existing engineTask) {
      finishedAt := some protected'.finishedAt
      errorMessage := some protected'.errorMessage
      errorCode := some protected'.errorCode
      -- Nothing else of the error is handed on.
      errorDetailKey := none
      errorDetailParams := none
      diagnosisRevision := none
    } now
  {
    existing with
    toTerminalFields := terminalFields
    progress := mergedProgress protected'
    totalBytes := protected'.totalBytes
    sizeWhenDone := protected'.sizeWhenDone
    downloadedBytes := protected'.downloadedBytes
    downloadSpeed := protected'.downloadSpeed
    uploadSpeed := protected'.uploadSpeed
    etaSeconds := protected'.etaSeconds
    connections := protected'.connections
    pieceLength := protected'.pieceLength
    uploadedBytes := mergedUpload existing engineTask
    fileCount := protected'.fileCount
    infoHash := protected'.infoHash <|> existing.infoHash
    uris := mergedUris existing engineTask
    bt := mergedBt existing engineTask (mergedUpload existing engineTask)
      protected'.totalBytes
    updatedAt := now
    instances :=
      syncTerminalInstanceStatus existing.instances terminalFields.status
  }

def mergeEngineTask (existing engineTask : DownloadTask) (now : ℚ) :
    DownloadTask :=
  if retains existing engineTask then existing
  else mergeReport existing engineTask now

/-- Lists that are not there count as empty. -/
def sameValues {α : Type} [DecidableEq α] (left right : Option (List α)) : Bool :=
  left.getD [] == right.getD []

def hasEngineTaskDelta (before after : DownloadTask) : Bool :=
  before.status != after.status ||
  before.progress != after.progress ||
  before.totalBytes != after.totalBytes ||
  before.sizeWhenDone != after.sizeWhenDone ||
  before.downloadedBytes != after.downloadedBytes ||
  before.downloadSpeed != after.downloadSpeed ||
  before.uploadSpeed != after.uploadSpeed ||
  before.etaSeconds != after.etaSeconds ||
  before.connections != after.connections ||
  before.pieceLength != after.pieceLength ||
  before.uploadedBytes != after.uploadedBytes ||
  before.fileCount != after.fileCount ||
  before.errorMessage != after.errorMessage ||
  before.errorCode != after.errorCode ||
  before.finishedAt != after.finishedAt ||
  before.infoHash != after.infoHash ||
  !sameValues (some before.uris) (some after.uris) ||
  !sameValues (before.bt.map BtExtension.selectedFiles)
    (after.bt.map BtExtension.selectedFiles) ||
  !sameValues (before.bt.map BtExtension.trackers)
    (after.bt.map BtExtension.trackers) ||
  before.bt.map BtExtension.comment != after.bt.map BtExtension.comment ||
  before.bt.map BtExtension.peers != after.bt.map BtExtension.peers ||
  before.bt.map BtExtension.seeds != after.bt.map BtExtension.seeds ||
  before.bt.map BtExtension.ratio != after.bt.map BtExtension.ratio

end Motrix.EngineMerge
