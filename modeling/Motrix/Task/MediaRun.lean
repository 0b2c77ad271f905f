import Motrix.Activity.HistoryEvent

/-!
# The run of a media task and its cancellation

A run commits its transitions through the mutation lane of its task, renames
the muxed placeholder onto the final path and then completes.  A cancel is a
flag that the run looks at between its awaits, and a commit of its own.
-/

namespace Motrix.MediaTask

open Motrix.Activity (TaskStatus)

/-- A transition that is committed through the lane. -/
inductive MediaCommit where
  | downloading
  | finalizing
  | completed
  | failure
  | cancellation
  deriving DecidableEq

def MediaCommit.nextStatus : MediaCommit → TaskStatus
  | .downloading => .downloading
  | .finalizing => .finalizing
  | .completed => .completed
  | .failure => .error
  | .cancellation => .error

/-- A failed write of these is logged and nothing is published. -/
def MediaCommit.bestEffort : MediaCommit → Bool
  | .downloading => false
  | .finalizing => false
  | _ => true

inductive CommitResult where
  | settled (published : Bool)
  | thrown
  | barrier
  deriving DecidableEq

inductive CommitStage where
  | persisting
  | publishing (occurrence : Bool)
  deriving DecidableEq

structure ActiveCommit where
  commit : MediaCommit
  stage : CommitStage
  deriving DecidableEq

/-- The await that a run is at; a run that awaits a commit is resumed with its
result. -/
inductive RunPoint where
  | submitting
  | awaiting (commit : MediaCommit)
  | resumed (commit : MediaCommit) (result : CommitResult)
  | working
  | moving
  | measuring
  | draining (barrier : Bool)
  | closing
  | ended
  deriving DecidableEq

structure MediaRun where
  acceptingSubmissions : Bool := true
  status : TaskStatus := .queued
  finalFile : Bool := false
  cancelled : Bool := false
  /-- The coordinator has the run in its map. -/
  running : Bool := false
  point : RunPoint := .submitting
  /-- Calls of `cancel` that await the downloaders, and the metadata. -/
  stopping : Nat := 0
  releasing : Nat := 0
  active : Option ActiveCommit := none
  lane : List MediaCommit := []
  /-- The terminal statuses the task was given. -/
  terminals : List TaskStatus := []

def isTerminalTaskStatus (status : TaskStatus) : Bool :=
  status == .completed || status == .error

namespace MediaRun

def goTo (run : MediaRun) (point : RunPoint) : MediaRun :=
  { run with point := point }

/-! ## The lane -/

def enqueue (run : MediaRun) (commit : MediaCommit) : MediaRun :=
  { run with lane := run.lane ++ [commit] }

/-- The run awaits a commit of its own. -/
def transition (run : MediaRun) (commit : MediaCommit) : MediaRun :=
  (run.enqueue commit).goTo (.awaiting commit)

/-- A commit of the run hands its result to it; a cancel needs no result. -/
def settle (run : MediaRun) (commit : MediaCommit) (result : CommitResult) :
    MediaRun :=
  if commit = .cancellation then run
  else run.goTo (.resumed commit result)

/-- The next operation of the lane begins and applies its mutation. -/
def beginCommit (run : MediaRun) : MediaRun :=
  match run.active, run.lane with
  | none, commit :: rest =>
      if commit = .finalizing ∧ run.cancelled = true then
        { run with
          active := none
          lane := rest }.settle commit .thrown
      else
        { run with
          active := some
            { commit := commit
              stage := .persisting }
          lane := rest }
  | _, _ => run

/-- The task of the manager is replaced. -/
def setStatus (run : MediaRun) (status : TaskStatus) : MediaRun :=
  { run with
    status := status
    terminals :=
      if isTerminalTaskStatus status = true ∧ run.status ≠ status then
        run.terminals ++ [status]
      else
        run.terminals }

def persisted (run : MediaRun) (succeeds : Bool) : MediaRun :=
  match run.active with
  | some { commit := commit, stage := .persisting } =>
      if succeeds then
        { run.setStatus commit.nextStatus with
          active := some
            { commit := commit
              stage := .publishing
                (isTerminalTaskStatus commit.nextStatus &&
                  run.status != commit.nextStatus) } }
      else
        { run with active := none }.settle commit
          (if commit.bestEffort then .settled false else .barrier)
  | _ => run

/-- The occurrence of a terminal status is dispatched, which may throw. -/
def published (run : MediaRun) (succeeds : Bool) : MediaRun :=
  match run.active with
  | some { commit := commit, stage := .publishing occurrence } =>
      { run with active := none }.settle commit
        (if occurrence && !succeeds then .thrown else .settled true)
  | _ => run

/-! ## The cancel -/

def cancel (run : MediaRun) : MediaRun :=
  if run.running then
    { run with
      cancelled := true
      stopping := run.stopping + 1 }
  else
    run

def stopAndDrain (run : MediaRun) : MediaRun :=
  if run.acceptingSubmissions then
    { run with acceptingSubmissions := false }.cancel
  else
    run

def downloadersCancelled (run : MediaRun) : MediaRun :=
  if run.stopping = 0 then run
  else
    { run with
      running := false
      stopping := run.stopping - 1
      releasing := run.releasing + 1 }

def metadataReleased (run : MediaRun) : MediaRun :=
  if run.releasing = 0 then run
  else
    { run with releasing := run.releasing - 1 }.enqueue .cancellation

/-! ## The run -/

/-- The handler of an error, up to its first await. -/
def handle (run : MediaRun) (barrier : Bool) : MediaRun :=
  if run.cancelled then run.goTo .closing
  else run.goTo (.draining barrier)

/-- Goes on unless the run was cancelled. -/
def assertActive (run : MediaRun) (next : MediaRun → MediaRun) :
    MediaRun :=
  if run.cancelled then run.handle false else next run

def register (run : MediaRun) : MediaRun :=
  if run.point = .submitting then
    if run.acceptingSubmissions then
      { run with running := true }.transition .downloading
    else
      { run with running := true }.cancel.goTo .ended
  else
    run

inductive WorkResult where
  | more
  | finished
  | failed
  deriving DecidableEq

/-- A step of the downloads, the decryption, the assembly or the mux. -/
def worked (run : MediaRun) (result : WorkResult) : MediaRun :=
  if run.point = .working then
    match result with
    | .more => run.assertActive fun run => run
    | .finished => run.assertActive fun run => run.transition .finalizing
    | .failed => run.handle false
  else
    run

def resume (run : MediaRun) : MediaRun :=
  match run.point with
  | .resumed .failure _ => run.goTo .closing
  | .resumed _ .thrown => run.handle false
  | .resumed _ .barrier => run.handle true
  | .resumed .downloading (.settled _) =>
      run.assertActive fun run => run.goTo .working
  | .resumed .finalizing (.settled _) =>
      run.assertActive fun run => run.goTo .moving
  | .resumed .completed (.settled _) => run.goTo .closing
  | _ => run

def renamed (run : MediaRun) (succeeds : Bool) : MediaRun :=
  if run.point = .moving then
    if succeeds then
      { run with finalFile := true }.assertActive
        fun run => run.goTo .measuring
    else
      run.handle false
  else
    run

def measured (run : MediaRun) : MediaRun :=
  if run.point = .measuring then
    run.assertActive fun run => run.transition .completed
  else
    run

def drained (run : MediaRun) : MediaRun :=
  match run.point with
  | .draining barrier =>
      if run.running = true ∧ run.cancelled = false ∧ barrier = false then
        run.transition .failure
      else
        run.goTo .closing
  | _ => run

def closed (run : MediaRun) : MediaRun :=
  if run.point = .closing then
    { run with running := false }.goTo .ended
  else
    run

end MediaRun

/-! ## Interleavings -/

inductive MediaEvent where
  | register
  | cancel
  | stopAndDrain
  | downloadersCancelled
  | metadataReleased
  | beginCommit
  | persisted (succeeds : Bool)
  | published (succeeds : Bool)
  | resume
  | worked (result : MediaRun.WorkResult)
  | renamed (succeeds : Bool)
  | measured
  | drained
  | closed
  deriving DecidableEq

namespace MediaRun

def apply (run : MediaRun) : MediaEvent → MediaRun
  | .register => run.register
  | .cancel => run.cancel
  | .stopAndDrain => run.stopAndDrain
  | .downloadersCancelled => run.downloadersCancelled
  | .metadataReleased => run.metadataReleased
  | .beginCommit => run.beginCommit
  | .persisted succeeds => run.persisted succeeds
  | .published succeeds => run.published succeeds
  | .resume => run.resume
  | .worked result => run.worked result
  | .renamed succeeds => run.renamed succeeds
  | .measured => run.measured
  | .drained => run.drained
  | .closed => run.closed

def interleave (run : MediaRun) (events : List MediaEvent) : MediaRun :=
  events.foldl apply run

/-- The run and every cancel of it are over. -/
def Over (run : MediaRun) : Prop :=
  run.point = .ended ∧ run.stopping = 0 ∧ run.releasing = 0 ∧
    run.active = none ∧ run.lane = []

end MediaRun

end Motrix.MediaTask
