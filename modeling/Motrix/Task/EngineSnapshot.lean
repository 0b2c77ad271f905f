import Mathlib.Data.Rat.Floor
import Motrix.Lib.Utf16
import Motrix.Task.TaskEnums

/-!
# Snapshots of the engine

A status that the engine reports is translated into a task, with the fields of
its end in one place.  Numbers are exact.
-/

namespace Motrix.EngineMerge

open Lib
open TaskEnums (TaskKind TaskType TaskStatus TransitionPhase TaskInstancePhase
  DownloadErrorCode TaskSource)

/-! ## Tasks -/

/-- What is read of a payload; the rest is kept as it is. -/
structure Payload where
  legacyImport : Bool
  legacyHttpActivation : Bool
  /-- Of a recipe that can be parsed. -/
  engineContextVersion : Option Nat
  /-- A gid and, where they are a number and not negative, its bytes. -/
  btFinalizeUpload : Option (String × Option ℚ)
  rest : List (String × String)
  deriving DecidableEq

structure TaskInstance where
  instanceId : String
  motrixId : String
  gid : Option String
  phase : TaskInstancePhase
  status : TaskStatus
  progress : ℚ
  totalBytes : ℚ
  downloadedBytes : ℚ
  uploadedBytes : ℚ
  diskPath : String
  transitionPhase : TransitionPhase
  uris : List String
  uriHash : Option String
  payload : Payload
  createdAt : ℚ
  updatedAt : ℚ
  deriving DecidableEq

@[ext]
structure BtExtension where
  peers : ℚ
  seeds : ℚ
  ratio : ℚ
  trackers : List String
  selectedFiles : List ℚ
  peersInSwarm : ℚ
  seedsInSwarm : ℚ
  announceList : List (List String)
  comment : Option String
  isPrivate : Bool
  magnetUri : Option String
  sequentialDownload : Bool
  deriving DecidableEq

@[ext]
structure TerminalFields where
  status : TaskStatus
  finishedAt : Option ℚ
  errorMessage : Option String
  errorCode : Option DownloadErrorCode
  errorDetailKey : Option String
  errorDetailParams : Option (List (String × String))
  diagnosisRevision : ℚ
  deriving DecidableEq

structure DownloadTask extends TerminalFields where
  storageOperation : Bool
  id : String
  engineTaskId : String
  name : String
  type : TaskType
  progress : ℚ
  mediaProgress : Option String
  totalBytes : ℚ
  downloadedBytes : ℚ
  downloadSpeed : ℚ
  uploadSpeed : ℚ
  etaSeconds : ℚ
  saveDir : String
  createdAt : ℚ
  updatedAt : ℚ
  uris : List String
  uploadedBytes : ℚ
  uploadedBytesBaseline : ℚ
  fileCount : ℚ
  connections : ℚ
  pieceLength : ℚ
  infoHash : Option String
  metadataProgress : ℚ
  priority : ℚ
  category : Option String
  dlLimit : ℚ
  ulLimit : ℚ
  filename : String
  sizeWhenDone : ℚ
  source : TaskSource
  sourceMeta : Option String
  bt : Option BtExtension
  diskPath : String
  finalPath : String
  finalName : String
  transitionPhase : TransitionPhase
  torrentMetaPath : Option String
  kind : TaskKind
  instances : List TaskInstance

/-! ## Terminal transitions -/

/-- An absent field was not provided. -/
structure TerminalTransitionInput where
  finishedAt : Option (Option ℚ)
  errorMessage : Option (Option String)
  errorCode : Option (Option DownloadErrorCode)
  errorDetailKey : Option (Option String)
  errorDetailParams : Option (Option (List (String × String)))
  diagnosisRevision : Option ℚ
  deriving DecidableEq

def isTerminalTaskStatus (status : TaskStatus) : Bool :=
  status == .completed || status == .error

def resolve {α : Type} (isCompleting : Bool) (incoming : Option (Option α))
    (current : Option α) : Option α :=
  if isCompleting then incoming.join else incoming.getD current

def validFinishedAt (value : Option (Option ℚ)) : Option ℚ :=
  value.join.filter fun time => 0 < time

def clearedFields (status : TaskStatus) : TerminalFields where
  status := status
  finishedAt := none
  errorMessage := none
  errorCode := none
  errorDetailKey := none
  errorDetailParams := none
  diagnosisRevision := 0

def applyTerminalTransition (current : TerminalFields) (nextStatus : TaskStatus)
    (incoming : TerminalTransitionInput) (now : ℚ) : TerminalFields :=
  if !isTerminalTaskStatus nextStatus then clearedFields nextStatus
  else if current.status = nextStatus then current
  else
    let isCompleting := nextStatus == .completed
    {
      status := nextStatus
      finishedAt := some ((validFinishedAt incoming.finishedAt).getD now)
      errorMessage :=
        resolve isCompleting incoming.errorMessage current.errorMessage
      errorCode := resolve isCompleting incoming.errorCode current.errorCode
      errorDetailKey :=
        resolve isCompleting incoming.errorDetailKey current.errorDetailKey
      errorDetailParams := resolve isCompleting incoming.errorDetailParams
        current.errorDetailParams
      diagnosisRevision := incoming.diagnosisRevision.getD
        (if isCompleting then 0 else current.diagnosisRevision)
    }

/-! ## Raw statuses -/

inductive Aria2Status where
  | active
  | waiting
  | paused
  | error
  | complete
  | removed
  deriving DecidableEq

structure Aria2RawFile where
  index : String
  path : String
  selected : String
  uris : List String
  deriving DecidableEq

structure Aria2FileMetadata where
  firstFile : Option Aria2RawFile
  fileCount : ℚ
  uris : List String
  selectedFiles : List ℚ
  deriving DecidableEq

structure Aria2RawBtInfo where
  announceList : Option (List (List String))
  comment : Option String
  name : Option String
  deriving DecidableEq

/-- With `fileMetadata` it is a sample of a list. -/
structure Aria2TaskStatus where
  gid : String
  status : Aria2Status
  totalLength : String
  completedLength : String
  uploadLength : String
  downloadSpeed : String
  uploadSpeed : String
  connections : String
  numSeeders : String
  seeder : String
  pieceLength : String
  dir : String
  files : List Aria2RawFile
  fileMetadata : Option Aria2FileMetadata
  bittorrent : Option Aria2RawBtInfo
  infoHash : Option String
  errorCode : Option String
  errorMessage : Option String
  deriving DecidableEq

structure SnapshotHost where
  /-- `Number` of a numeral -/
  number : String → ℚ
  trim : String → String
  basename : String → String
  join : String → String → String
  /-- `new URL(uri).pathname`, unless it throws -/
  pathname : String → Option String
  platform : String
  now : ℚ

variable (host : SnapshotHost) (raw : Aria2TaskStatus)

def translateStatus : TaskStatus :=
  if raw.status = .active ∧ raw.seeder = "true" ∧ raw.bittorrent.isSome then
    .seeding
  else if raw.status = .active ∧ raw.totalLength = "0" ∧
      raw.bittorrent.isSome then
    .fetchingMetadata
  else
    match raw.status with
    | .active => .downloading
    | .waiting => .queued
    | .paused => .paused
    | .complete => .completed
    | .error => .error
    | .removed => .removed

def isDigits (text : String) : Bool :=
  text != "" && text.toList.all Char.isDigit

def parseDigits (text : String) : Nat :=
  text.toList.foldl (fun value digit => value * 10 + (digit.toNat - 48)) 0

/-- The number that a text begins with; none is zero. -/
def parseInt (text : String) : Nat :=
  let digits := if text.startsWith "+" then text.toList.drop 1 else text.toList
  parseDigits (String.ofList (digits.takeWhile Char.isDigit))

def translateErrorCode (rawErrorCode : Option String) :
    Option DownloadErrorCode :=
  let normalized := (rawErrorCode.map host.trim).getD ""
  if normalized = "" ∨ normalized = "0" then none
  else if !isDigits normalized then some .unknown
  else
    let code := parseDigits normalized
    if [2, 5].contains code then some .timeout
    else if [3, 4].contains code then some .notFound
    else if [6, 19].contains code then some .networkError
    else if code = 9 then some .diskFull
    else if [11, 13, 14, 15, 16, 17, 18].contains code then
      some .fileWriteError
    else if code = 23 then some .tooManyRedirects
    else if code = 24 then some .unauthorized
    else if [8, 21, 22, 29].contains code then some .serverError
    else if [25, 26, 27].contains code then some .btMetadataFailed
    else if [10, 32].contains code then some .checksumMismatch
    else some .unknown

def fileAccessErrorCodes : List Nat :=
  [13, 14, 15, 16, 17, 18]

/-- Where the last separator begins, if something stands before it. -/
def beforeSeparator (separator : List Char) : List Char → Option (List Char)
  | [] => none
  | first :: rest =>
      match beforeSeparator separator rest with
      | some path => some (first :: path)
      | none => if separator.isPrefixOf rest then some [first] else none

def lineTerminators : List Char :=
  ['\n', '\r', '\u2028', '\u2029']

/-- ``/^Failed to open the file (.+), cause: /u`` -/
def extractAria2FilePath (errorMessage : Option String) : Option String := do
  let message ← errorMessage
  let opening := "Failed to open the file ".toList
  if !opening.isPrefixOf message.toList then none
  else
    let line := (message.toList.drop opening.length).takeWhile fun character =>
      !lineTerminators.contains character
    (beforeSeparator ", cause: ".toList line).map String.ofList

def windowsMaxPath : Nat :=
  32767 - 8

def exceedsPathLimit (filePath : String) : Option (Nat × Nat) :=
  let length := (Utf16.encode filePath.toList).length
  if host.platform ≠ "win32" ∨ filePath.startsWith "\\\\?\\" ∨
      length ≤ windowsMaxPath then
    none
  else some (length, windowsMaxPath)

structure TerminalErrorClassification where
  errorCode : Option DownloadErrorCode
  errorDetailKey : Option String
  errorDetailParams : Option (List (String × String))
  deriving DecidableEq

def classifyTerminalError (rawErrorCode rawErrorMessage : Option String) :
    TerminalErrorClassification :=
  let errorCode := translateErrorCode host rawErrorCode
  let numeric := parseInt ((rawErrorCode.map host.trim).getD "")
  let overrun := do
    let filePath ← extractAria2FilePath rawErrorMessage
    let overrun ← exceedsPathLimit host filePath
    some (filePath, overrun)
  match overrun with
  | some (filePath, length, limit) =>
      if errorCode.isSome ∧ fileAccessErrorCodes.contains numeric then {
        errorCode := some .pathTooLong
        errorDetailKey := some "task.error.detail.pathTooLong"
        errorDetailParams := some [
          ("length", toString length),
          ("limit", toString limit),
          ("path", filePath)
        ]
      }
      else ⟨errorCode, none, none⟩
  | none => ⟨errorCode, none, none⟩

def firstFile : Option Aria2RawFile :=
  match raw.fileMetadata with
  | some fileMetadata => fileMetadata.firstFile
  | none => raw.files.head?

def firstUri : Option String :=
  (firstFile raw).bind fun file => file.uris.head?

def detectTaskType : TaskType :=
  if ((firstUri raw).getD "").startsWith "magnet:" then .magnet
  else if ((firstUri raw).getD "").startsWith "ftp://" then .ftp
  else if raw.bittorrent.isSome then .bt
  else .http

def computeProgress (totalLength completedLength : String) : ℚ :=
  if host.number totalLength = 0 then 0
  else host.number completedLength / host.number totalLength

def mathRound (value : ℚ) : ℚ :=
  ⌊value + 1 / 2⌋

def computeEta (totalLength completedLength downloadSpeed : String) : ℚ :=
  let remaining := host.number totalLength - host.number completedLength
  let speed := host.number downloadSpeed
  if speed = 0 ∨ remaining ≤ 0 then 0 else mathRound (remaining / speed)

/-- The last part, or the whole path if that is empty. -/
def lastPart (path fallback : String) : String :=
  let last := (path.splitOn "/").getLast?.getD ""
  if last = "" then fallback else last

def extractName : String :=
  let named := (raw.bittorrent.bind Aria2RawBtInfo.name).getD ""
  let path := ((firstFile raw).map Aria2RawFile.path).getD ""
  if named ≠ "" then named
  else if path ≠ "" then lastPart path path
  else
    match (firstUri raw).bind host.pathname with
    | some pathname => lastPart pathname raw.gid
    | none => raw.gid

def extractUris : List String :=
  match raw.fileMetadata with
  | some fileMetadata => fileMetadata.uris
  | none => (raw.files.flatMap Aria2RawFile.uris).foldl
      (fun uris uri => if uris.contains uri then uris else uris ++ [uri]) []

def shareRatio (uploadedBytes totalBytes : ℚ) : ℚ :=
  if 0 < totalBytes then max 0 uploadedBytes / totalBytes else 0

def translateBtExtension : Option BtExtension :=
  raw.bittorrent.map fun bittorrent => {
    peers := host.number raw.connections
    seeds := host.number raw.numSeeders
    ratio := shareRatio (host.number raw.uploadLength)
      (host.number raw.totalLength)
    trackers := (bittorrent.announceList.getD []).flatten
    selectedFiles :=
      match raw.fileMetadata with
      | some fileMetadata => fileMetadata.selectedFiles
      | none => (raw.files.filter fun file => file.selected = "true").map
          fun file => host.number file.index - 1
    peersInSwarm := 0
    seedsInSwarm := 0
    announceList := bittorrent.announceList.getD []
    comment := bittorrent.comment
    isPrivate := false
    magnetUri := none
    sequentialDownload := false
  }

def toFinalPath (path : String) : String :=
  if path.endsWith ".motrix" then
    String.ofList (path.toList.take (path.toList.length - 7))
  else path

/-- The path on the disk. -/
def derivedDiskPath : String :=
  let path := ((firstFile raw).map Aria2RawFile.path).getD ""
  if [TaskType.bt, .magnet].contains (detectTaskType raw) then raw.dir
  else if path ≠ "" then path
  else if raw.dir ≠ "" then host.join raw.dir (extractName host raw)
  else ""

def translateRawToTask : DownloadTask :=
  let status := translateStatus raw
  let diskPath := derivedDiskPath host raw
  let finalPath := toFinalPath diskPath
  let displayName := toFinalPath (extractName host raw)
  let taskType := detectTaskType raw
  let kind : TaskKind :=
    if [TaskType.bt, .magnet].contains taskType then .bt else .direct
  let totalBytes := host.number raw.totalLength
  let downloadedBytes := host.number raw.completedLength
  let uris := extractUris raw
  let error := classifyTerminalError host raw.errorCode raw.errorMessage
  {
    applyTerminalTransition (clearedFields .queued) status {
      finishedAt := some (if raw.status = .complete then some host.now else none)
      errorMessage := some raw.errorMessage
      errorCode := some error.errorCode
      errorDetailKey := some error.errorDetailKey
      errorDetailParams := some error.errorDetailParams
      diagnosisRevision := none
    } host.now with
    storageOperation := false
    id := raw.gid
    engineTaskId := raw.gid
    name := displayName
    type := taskType
    progress := computeProgress host raw.totalLength raw.completedLength
    mediaProgress := none
    totalBytes
    downloadedBytes
    downloadSpeed := host.number raw.downloadSpeed
    uploadSpeed := host.number raw.uploadSpeed
    etaSeconds :=
      computeEta host raw.totalLength raw.completedLength raw.downloadSpeed
    saveDir := raw.dir
    createdAt := host.now
    updatedAt := host.now
    uris
    uploadedBytes := host.number raw.uploadLength
    uploadedBytesBaseline := 0
    fileCount :=
      match raw.fileMetadata with
      | some fileMetadata => fileMetadata.fileCount
      | none => raw.files.length
    connections := host.number raw.connections
    pieceLength := host.number raw.pieceLength
    infoHash := raw.infoHash
    metadataProgress := 0
    priority := 0
    category := none
    dlLimit := 0
    ulLimit := 0
    filename := displayName
    sizeWhenDone := totalBytes
    source := .user
    sourceMeta := none
    bt := translateBtExtension host raw
    diskPath
    finalPath
    finalName := if finalPath = "" then "" else host.basename finalPath
    transitionPhase := .idle
    torrentMetaPath := none
    kind
    instances := [{
      instanceId := "adopted:" ++ raw.gid
      motrixId := ""
      gid := some raw.gid
      phase := if kind = .bt then .btDownload else .httpDownload
      status
      progress :=
        if 0 < totalBytes then
          min 100 (mathRound (downloadedBytes * 100 / totalBytes))
        else 0
      totalBytes
      downloadedBytes
      uploadedBytes := host.number raw.uploadLength
      diskPath
      transitionPhase := .idle
      uris
      uriHash := none
      payload := ⟨false, false, none, none, []⟩
      createdAt := host.now
      updatedAt := host.now
    }]
  }

end Motrix.EngineMerge
