import Mathlib.Data.List.Basic
import Motrix.Task.TaskEnums

/-!
# The selection timeout of magnets

One timer is armed for the magnet whose time to choose files ends first.  When
it fires, an attempt looks at the task again, reads the torrent, looks again,
and asks for the download of all files.  What was attempted is remembered by
task and timestamp, and forgotten once the task no longer waits.
-/

namespace Motrix.SelectionTimeout

open TaskEnums (TaskStatus TaskInstancePhase)

abbrev TaskId := Nat

structure Instance where
  phase : TaskInstancePhase
  fileSelectionReadyAt : Option Int
deriving DecidableEq

structure Task where
  id : TaskId
  status : TaskStatus
  instances : List Instance
  updatedAt : Int
deriving DecidableEq

/-- Older tasks have no timestamp of their own. -/
def readyAt (task : Task) : Int :=
  let resolution := task.instances.find?
    (·.phase == .magnetMetadataResolution)
  (resolution.bind Instance.fileSelectionReadyAt).getD task.updatedAt

/-- The tasks of the manager, which keeps them by id. -/
structure Tasks where
  all : List Task
  distinct : (all.map Task.id).Nodup

structure Settings where
  magnetFileSelection : Bool
  magnetFileSelectionAutoDownload : Bool
  magnetFileSelectionTimeoutSeconds : Int
deriving DecidableEq

/-- An attempt that the timer started. -/
inductive JobPhase where
  | queued
  | reading
  | creating
  | settled
  | done
deriving DecidableEq

structure Job where
  taskId : TaskId
  timestamp : Int
  phase : JobPhase
deriving DecidableEq

/-- A call of `createTask`, with what was read right before it. -/
structure Call where
  taskId : TaskId
  timestamp : Int
  task : Task
  settings : Settings
  engineReady : Bool
  now : Int
  stopped : Bool
deriving DecidableEq

inductive Outcome where
  | started
  | failed
deriving DecidableEq

structure Notice where
  taskId : TaskId
  timestamp : Int
  outcome : Outcome
  downloadTaskId : TaskId
deriving DecidableEq

structure World where
  tasks : Tasks
  settings : Settings
  now : Int
  engineReady : Bool
  attempted : TaskId → Option Int
  running : List TaskId
  timer : Option (TaskId × Int)
  started : Bool
  stopped : Bool
  jobs : List Job
  calls : List Call
  settledEvents : List (TaskId × TaskId)
  notices : List Notice

/-- What `createTask` comes to. -/
inductive CreateOutcome where
  | created (taskId : TaskId)
  | refused
  | threw
deriving DecidableEq

inductive Event where
  | tasks (tasks : Tasks)
  | settings (settings : Settings)
  | clock (now : Int)
  | engine (ready : Bool)
  | watched
  | start
  | stopAndDrain
  | timerFires
  | begins (job : Nat)
  | selectionRead (job : Nat) (found : Bool)
  | selectionFails (job : Nat)
  | createSettles (job : Nat) (outcome : CreateOutcome)
  | finally' (job : Nat)

namespace World

variable (world : World)

def optionsOn : Bool :=
  world.settings.magnetFileSelection &&
    world.settings.magnetFileSelectionAutoDownload && world.engineReady

def delay (task : Task) : Option Int :=
  if world.stopped || !world.optionsOn || task.status ≠ .metadataReady then
    none
  else
    some (readyAt task +
      world.settings.magnetFileSelectionTimeoutSeconds * 1000 - world.now)

/-- Whether a task of the list waits for files since the timestamp. -/
def Waits (taskId : TaskId) (timestamp : Int) : Prop :=
  ∃ task ∈ world.tasks.all, task.id = taskId ∧
    task.status = .metadataReady ∧ readyAt task = timestamp

instance (taskId : TaskId) (timestamp : Int) :
    Decidable (world.Waits taskId timestamp) :=
  inferInstanceAs (Decidable (∃ task ∈ world.tasks.all, task.id = taskId ∧
    task.status = .metadataReady ∧ readyAt task = timestamp))

def pruned (taskId : TaskId) : Option Int :=
  match world.attempted taskId with
  | none => none
  | some timestamp =>
      if world.Waits taskId timestamp then some timestamp else none

/-- The time left to a task that is neither running nor attempted. -/
def candidate (attempted : TaskId → Option Int) (task : Task) : Option Int :=
  if world.running.contains task.id ∨
      attempted task.id = some (readyAt task) then none
  else world.delay task

def better (attempted : TaskId → Option Int) (best : Option (Task × Int))
    (task : Task) : Option (Task × Int) :=
  match world.candidate attempted task with
  | none => best
  | some delay =>
      if best.all fun chosen => delay < chosen.2 then some (task, delay)
      else best

/-- The first task among those with the shortest delay. -/
def next (attempted : TaskId → Option Int) : Option (Task × Int) :=
  world.tasks.all.foldl (world.better attempted) none

def refresh : World :=
  let world := { world with timer := none }
  if world.stopped || !world.optionsOn then world
  else
    { world with
      attempted := world.pruned
      timer := (world.next world.pruned).map fun best =>
        (best.1.id, readyAt best.1) }

def start : World :=
  if world.started || world.stopped then world
  else { world with started := true }.refresh

def stopAndDrain : World :=
  { world with
    stopped := true
    timer := none }

/-- The listeners are there from `start` to `stopAndDrain`. -/
def watched : World :=
  if world.started && !world.stopped then world.refresh else world

def timerFires : World :=
  match world.timer with
  | none => world
  | some (taskId, timestamp) =>
      let job : Job := {
        taskId := taskId
        timestamp := timestamp
        phase := .queued
      }
      { world with
        running := taskId :: world.running
        jobs := world.jobs ++ [job] }.refresh

def eligibleTask (taskId : TaskId) (timestamp : Int) : Option Task :=
  match world.tasks.all.find? (·.id == taskId) with
  | none => none
  | some task =>
      if readyAt task ≠ timestamp then none
      else if (world.delay task).any (· ≤ 0) then some task
      else none

def enter (index : Nat) (job : Job) (phase : JobPhase) : World :=
  { world with jobs := world.jobs.set index { job with phase := phase } }

def mark (taskId : TaskId) (timestamp : Int) : World :=
  { world with
    attempted := fun other =>
      if other = taskId then some timestamp else world.attempted other }

def notify (job : Job) (outcome : Outcome) (downloadTaskId : TaskId) :
    World :=
  { world with
    notices := world.notices ++ [{
      taskId := job.taskId
      timestamp := job.timestamp
      outcome := outcome
      downloadTaskId := downloadTaskId
    }] }

/-- The end of an attempt that started nothing. -/
def fail (job : Job) : World :=
  if world.stopped then world
  else if (world.eligibleTask job.taskId job.timestamp).isNone then world
  else world.notify job .failed job.taskId

def succeed (job : Job) (downloadTaskId : TaskId) : World :=
  if world.stopped then world
  else
    { world with
      settledEvents := world.settledEvents ++
        [(job.taskId, downloadTaskId)] }.notify job .started downloadTaskId

/-- What an attempt does when a step of it throws. -/
def catches (job : Job) : World :=
  if (world.eligibleTask job.taskId job.timestamp).isNone then world
  else (world.mark job.taskId job.timestamp).fail job

def createTask (job : Job) (task : Task) : World :=
  { world with
    calls := world.calls ++ [{
      taskId := job.taskId
      timestamp := job.timestamp
      task := task
      settings := world.settings
      engineReady := world.engineReady
      now := world.now
      stopped := world.stopped
    }] }

def begins (index : Nat) (job : Job) : World :=
  if (world.eligibleTask job.taskId job.timestamp).isNone then
    world.enter index job .settled
  else world.enter index job .reading

def selectionRead (index : Nat) (job : Job) (found : Bool) : World :=
  match world.eligibleTask job.taskId job.timestamp with
  | none => world.enter index job .settled
  | some task =>
      let world := world.mark job.taskId job.timestamp
      if found then (world.enter index job .creating).createTask job task
      else (world.enter index job .settled).fail job

def createSettles (index : Nat) (job : Job) (outcome : CreateOutcome) :
    World :=
  let world := world.enter index job .settled
  match outcome with
  | .created taskId => world.succeed job taskId
  | .refused => world.fail job
  | .threw => world.catches job

def finally' (index : Nat) (job : Job) : World :=
  { world.enter index job .done with
    running := world.running.filter (· ≠ job.taskId) }.refresh

/-- An event of a job that is in the phase it belongs to. -/
def atJob (index : Nat) (phase : JobPhase) (act : Job → World) : World :=
  match world.jobs[index]? with
  | none => world
  | some job => if job.phase = phase then act job else world

def step : Event → World
  | .tasks tasks => { world with tasks := tasks }
  | .settings settings => { world with settings := settings }
  | .clock now => { world with now := now }
  | .engine ready => { world with engineReady := ready }
  | .watched => world.watched
  | .start => world.start
  | .stopAndDrain => world.stopAndDrain
  | .timerFires => world.timerFires
  | .begins index => world.atJob index .queued (world.begins index)
  | .selectionRead index found =>
      world.atJob index .reading (world.selectionRead index · found)
  | .selectionFails index =>
      world.atJob index .reading fun job =>
        (world.enter index job .settled).catches job
  | .createSettles index outcome =>
      world.atJob index .creating (world.createSettles index · outcome)
  | .finally' index => world.atJob index .settled (world.finally' index)

end World

def boot (tasks : Tasks) (settings : Settings) (now : Int)
    (engineReady : Bool) : World where
  tasks := tasks
  settings := settings
  now := now
  engineReady := engineReady
  attempted _ := none
  running := []
  timer := none
  started := false
  stopped := false
  jobs := []
  calls := []
  settledEvents := []
  notices := []

end Motrix.SelectionTimeout
