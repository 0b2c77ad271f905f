import Motrix.Lib.Utf16

/-!
# Task history events

One step in the life of a task, as the runtime hands it to the store.  Task ids
are normalized, and a record of detail parameters is its JSON text.
-/

namespace Motrix.Activity

open Motrix.Lib

inductive TaskStatus where
  | queued
  | fetchingMetadata
  | metadataReady
  | downloading
  | finalizing
  | seeding
  | paused
  | completed
  | error
  | removed
  deriving DecidableEq, Repr

inductive TaskHistoryEventKind where
  | added
  | started
  | paused
  | resumed
  | stageChanged
  | completed
  | failed
  | observedState
  deriving DecidableEq, Repr

inductive TaskHistoryAccuracy where
  | exact
  | recovered
  deriving DecidableEq, Repr

inductive TaskHistoryDelivery where
  | initial
  | retry
  deriving DecidableEq, Repr

structure TaskHistoryEvent where
  eventOrdinal : Nat
  eventKey : String
  kind : TaskHistoryEventKind
  fromStatus : Option TaskStatus
  toStatus : TaskStatus
  occurredAt : Nat
  accuracy : TaskHistoryAccuracy
  errorCode : Option String
  errorMessage : Option String
  errorDetailKey : Option String
  errorDetailParams : Option String
  deriving DecidableEq, Repr

structure TaskHistoryEventInput extends TaskHistoryEvent where
  taskId : String
  runtimeGeneration : String
  occurredMonotonicMs : Nat
  delivery : TaskHistoryDelivery
  deriving DecidableEq, Repr

/-! ## Validation -/

def maxSafeInteger : Nat := 9007199254740991

def maxSignedInt64 : Nat := 9223372036854775807

def maxTaskIdLength : Nat := 1024

def maxEventKeyLength : Nat := 256

def maxErrorCodeLength : Nat := 128

def maxErrorMessageLength : Nat := 2048

def maxErrorDetailKeyLength : Nat := 128

def maxErrorDetailParamsJsonLength : Nat := 2048

/-- The length of a text in the host language. -/
def textLength (text : String) : Nat :=
  (Utf16.encode text.toList).length

def rangeMessage (label : String) (maxLength : Nat) : String :=
  label ++ " must contain between 1 and " ++ toString maxLength ++
    " characters"

def assertTaskId (taskId : String) : Except String Unit :=
  if textLength taskId = 0 ∨ textLength taskId > maxTaskIdLength then
    .error (rangeMessage "taskId" maxTaskIdLength)
  else
    .ok ()

def assertPositiveSafeInteger (value : Nat) (label : String) :
    Except String Unit :=
  if value = 0 ∨ value > maxSafeInteger then
    .error (label ++ " must be a positive safe integer")
  else
    .ok ()

def assertNonNegativeSafeInteger (value : Nat) (label : String) :
    Except String Unit :=
  if value > maxSafeInteger then
    .error (label ++ " must be a non-negative safe integer")
  else
    .ok ()

def assertBoundedText (value : Option String) (label : String)
    (maxLength : Nat) : Except String Unit :=
  match value with
  | none => .ok ()
  | some text =>
      if textLength text = 0 ∨ textLength text > maxLength then
        .error (rangeMessage label maxLength)
      else
        .ok ()

def assertBoundedDetailParams (value : Option String) (label : String)
    (maxJsonLength : Nat) : Except String Unit :=
  match value with
  | none => .ok ()
  | some json =>
      if textLength json > maxJsonLength then
        .error (label ++ " JSON must not exceed " ++ toString maxJsonLength ++
          " characters")
      else
        .ok ()

def isActiveResumeStatus : TaskStatus → Bool
  | .fetchingMetadata => true
  | .downloading => true
  | .finalizing => true
  | .seeding => true
  | _ => false

def validateKind (event : TaskHistoryEvent) : Except String Unit :=
  match event.kind with
  | .added =>
      if event.fromStatus.isSome then
        .error "Added must not have a fromStatus"
      else
        .ok ()
  | .started =>
      if isActiveResumeStatus event.toStatus then
        .ok ()
      else
        .error "Started must enter an active status"
  | .paused =>
      if event.fromStatus.any isActiveResumeStatus &&
          event.toStatus == .paused then
        .ok ()
      else
        .error "Paused must transition from active to paused"
  | .resumed =>
      if event.fromStatus == some .paused &&
          isActiveResumeStatus event.toStatus then
        .ok ()
      else
        .error "Resumed must transition from paused to active"
  | .completed =>
      if event.toStatus == .completed then
        .ok ()
      else
        .error "Completed must end in completed"
  | .failed =>
      if event.toStatus == .error then
        .ok ()
      else
        .error "Failed must end in error"
  | .observedState =>
      if event.accuracy == .recovered then
        .ok ()
      else
        .error "Observed state must be recovered"
  | .stageChanged => .ok ()

def validateHistoryEventInput (input : TaskHistoryEventInput) :
    Except String Unit := do
  assertTaskId input.taskId
  assertPositiveSafeInteger input.eventOrdinal "eventOrdinal"
  assertBoundedText (some input.eventKey) "eventKey" maxEventKeyLength
  assertBoundedText (some input.runtimeGeneration) "runtimeGeneration"
    maxEventKeyLength
  assertPositiveSafeInteger input.occurredAt "occurredAt"
  assertNonNegativeSafeInteger input.occurredMonotonicMs "occurredMonotonicMs"
  assertBoundedText input.errorCode "errorCode" maxErrorCodeLength
  assertBoundedText input.errorMessage "errorMessage" maxErrorMessageLength
  assertBoundedText input.errorDetailKey "errorDetailKey"
    maxErrorDetailKeyLength
  assertBoundedDetailParams input.errorDetailParams "errorDetailParams"
    maxErrorDetailParamsJsonLength
  validateKind input.toTaskHistoryEvent

end Motrix.Activity
