import Motrix.Activity.HistoryEvent
import Motrix.Task.TaskEnums
import Motrix.Task.TaskIndexes

/-!
# Tasks that are added to the engine again

A retry or a new seeding gives a task a new engine id, which its primary
instance holds from then on.
-/

namespace Motrix.ReAdd

open Motrix.Activity (TaskStatus)
open Motrix.TaskEnums (TaskType TaskInstancePhase)
open Motrix.Task (TaskInstance)

/-! ## Tasks -/

inductive TransitionPhase where
  | idle
  | renaming
  | reseeding
  deriving DecidableEq

inductive TaskKind where
  | direct
  | bt
  | hls
  | mux
  deriving DecidableEq

/-- `btFinalizeUpload`: what of the upload of an engine id is accounted. -/
structure UploadMarker where
  gid : String
  bytes : Nat
  deriving DecidableEq

/-- `directReplay`: only an engine that retains the request has a version. -/
structure DirectReplay where
  uriOnly : Bool
  engineContextVersion : Option Nat
  deriving DecidableEq

structure ReAddInstance extends TaskInstance where
  phase : TaskInstancePhase
  status : TaskStatus
  uris : List String
  diskPath : String
  hasLegacyImport : Bool
  uploadedBytes : Int
  upload : Option UploadMarker
  replay : Option DirectReplay
  updatedAt : Nat
  deriving DecidableEq

structure ReAddTask where
  id : String
  type : TaskType
  kind : TaskKind
  status : TaskStatus
  transitionPhase : TransitionPhase
  engineTaskId : String
  diskPath : String
  torrentMetaPath : Option String
  instances : List ReAddInstance
  uploadedBytes : Int
  uploadedBytesBaseline : Int
  finishedAt : Option Nat
  errorMessage : Option String
  errorCode : Option String
  errorDetailKey : Option String
  diagnosisRevision : Nat
  updatedAt : Nat
  deriving DecidableEq

/-! ## Replacements -/

def phasePriority : TaskInstancePhase → Nat
  | .ffmpegMux => 100
  | .btDownload => 90
  | .httpDownload => 80
  | .magnetMetadataResolution => 70
  | .hlsSegment => 50
  | .hlsSubtitle => 40
  | .hlsAudio => 30

/-- The position of the first instance with the greatest priority. -/
def primaryPosition : List ReAddInstance → Option Nat
  | [] => none
  | first :: rest =>
      some (((rest.zipIdx 1).foldl
        (fun best entry =>
          if phasePriority best.1.phase < phasePriority entry.1.phase then
            entry
          else best) (first, 0)).2)

def accountedUpload (instances : List ReAddInstance) (gid : String) :
    Option Nat :=
  (instances.filterMap (·.upload)).findSome? fun marker =>
    if marker.gid = gid then some marker.bytes else none

/-- Every transition of this module leaves a terminal status. -/
def applyTransition (task : ReAddTask) (status : TaskStatus) : ReAddTask :=
  { task with
    status := status
    finishedAt := none
    errorMessage := none
    errorCode := none
    errorDetailKey := none
    diagnosisRevision := 0 }

def primaryIndex (task : ReAddTask) : Nat :=
  (task.instances.findIdx? (·.gid == some task.engineTaskId)).getD 0

/-- Without a status only the identity changes. -/
def withReservedGid (task : ReAddTask) (engineTaskId : String) (now : Nat)
    (status : Option TaskStatus) : ReAddTask :=
  let transitioned :=
    match status with
    | some status => applyTransition task status
    | none => task
  { transitioned with
    engineTaskId := engineTaskId
    instances := task.instances.mapIdx fun index entry =>
      if index = primaryIndex task then
        { entry with
          gid := some engineTaskId
          uploadedBytes := 0
          status := status.getD entry.status
          updatedAt := now }
      else entry
    updatedAt := now }

end Motrix.ReAdd
