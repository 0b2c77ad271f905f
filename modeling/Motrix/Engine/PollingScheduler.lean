import Motrix.Lib.Trace

/-!
# The polling scheduler

Polls follow one another through a timer; notifications of the engine ask for
a poll at once.  Every answer of the engine arrives as an event of its own, so
anything may happen while it is awaited.
-/

namespace Motrix.Polling

open Lib

def startNotifications : List String :=
  ["aria2.onDownloadStart"]

def stopNotifications : List String :=
  ["aria2.onDownloadPause", "aria2.onDownloadComplete",
    "aria2.onDownloadStop", "aria2.onDownloadError",
    "aria2.onBtDownloadComplete"]

inductive Mode where
  | active
  | idle
  deriving DecidableEq

/-- `ACTIVE_INTERVAL` and `IDLE_INTERVAL`. -/
def Mode.interval : Mode → Nat
  | active => 1000
  | idle => 10000

inductive PollingTaskUpdateSource where
  | authoritativePoll
  | notification
  deriving DecidableEq

/-- What is read off the statistics of the engine; a number of active tasks
that is not finite is no value. -/
structure Host (RawStats Stats : Type) where
  numActive : RawStats → Option Int
  translateGlobalStat : RawStats → Stats

/-- What happens to the scheduler, and what it does, in order. -/
inductive Entry (Stats Task : Type) where
  | started
  | stopped
  | invalidated
  | asked (request : Nat)
  | stats (request : Nat) (stats : Stats)
  | tasks (request : Nat) (tasks : List Task)
      (source : PollingTaskUpdateSource)
  | activeChanged (active : Bool)

/-- A stop, a restart or a global invalidation of the metadata. -/
def Entry.cuts {Stats Task : Type} : Entry Stats Task → Bool
  | .started => true
  | .stopped => true
  | .invalidated => true
  | _ => false

/-- The request whose answer is delivered. -/
def Entry.delivers {Stats Task : Type} : Entry Stats Task → Option Nat
  | .stats request _ => some request
  | .tasks request _ _ => some request
  | _ => none

/-- Where `pollOnce` waits; a settled one waits for its `finally`. -/
inductive PollPhase (Status Task : Type) where
  | multicall
  | hydrating (rest : List Status) (tasks : List Task)
  | updating
  | settled

structure PollRun (Status Task : Type) where
  id : Nat
  epoch : Nat
  phase : PollPhase Status Task

/-- Where `handleNotification` waits; the last three come after
`syncNotifiedTask`. -/
inductive SyncPhase where
  | tellStatus
  | hydrating
  | updating
  | synced
  | globalStat
  | checked

structure SyncRun where
  id : Nat
  gid : String
  stops : Bool
  epoch : Nat
  phase : SyncPhase

structure Timer where
  handle : Nat
  interval : Nat

/-- The fields of the scheduler, the timers that are armed, the calls that are
still awaited and the log. -/
structure PollingScheduler (Stats Status Task : Type) where
  mode : Mode := .idle
  timer : Option Nat := none
  polling : Bool := false
  stopped : Bool := true
  pendingPoll : Bool := false
  inFlightPoll : Option Nat := none
  drainPromise : Option (Option Nat) := none
  subscribed : Bool := false
  epoch : Nat := 0
  timers : List Timer := []
  polls : List (PollRun Status Task) := []
  syncs : List SyncRun := []
  log : List (Entry Stats Task) := []
  fresh : Nat := 0

namespace PollingScheduler

variable {RawStats Stats Status Task : Type}

def note (scheduler : PollingScheduler Stats Status Task)
    (entry : Entry Stats Task) : PollingScheduler Stats Status Task :=
  { scheduler with log := scheduler.log ++ [entry] }

def clearTimer (scheduler : PollingScheduler Stats Status Task) :
    PollingScheduler Stats Status Task :=
  { scheduler with
    timer := none
    timers := scheduler.timers.filter fun armed =>
      scheduler.timer != some armed.handle }

def scheduleNext (scheduler : PollingScheduler Stats Status Task) :
    PollingScheduler Stats Status Task :=
  if scheduler.stopped then scheduler
  else
    { scheduler with
      timer := some scheduler.fresh
      timers := scheduler.timers ++
        [⟨scheduler.fresh, scheduler.mode.interval⟩]
      fresh := scheduler.fresh + 1 }

def switchMode (scheduler : PollingScheduler Stats Status Task)
    (newMode : Mode) : PollingScheduler Stats Status Task :=
  if scheduler.mode = newMode then scheduler
  else
    ({ scheduler with mode := newMode }).clearTimer.scheduleNext.note
      (.activeChanged (newMode == Mode.active))

/-- A poll that is in flight already is followed by another one. -/
def poll (scheduler : PollingScheduler Stats Status Task) :
    PollingScheduler Stats Status Task :=
  if scheduler.stopped then scheduler
  else if scheduler.polling then { scheduler with pendingPoll := true }
  else
    { scheduler with
      polling := true
      inFlightPoll := some scheduler.fresh
      polls := scheduler.polls ++
        [⟨scheduler.fresh, scheduler.epoch, .multicall⟩]
      log := scheduler.log ++ [.asked scheduler.fresh]
      fresh := scheduler.fresh + 1 }

def requestPoll (scheduler : PollingScheduler Stats Status Task) :
    PollingScheduler Stats Status Task :=
  if scheduler.stopped then scheduler else scheduler.clearTimer.poll

def start (scheduler : PollingScheduler Stats Status Task) :
    PollingScheduler Stats Status Task :=
  ({ scheduler.note .started with
      epoch := scheduler.epoch + 1
      subscribed := true
      drainPromise := none
      mode := .idle
      stopped := false }).poll

def stopAndDrain (scheduler : PollingScheduler Stats Status Task) :
    PollingScheduler Stats Status Task :=
  let scheduler := scheduler.note .stopped
  if scheduler.drainPromise.isSome then scheduler
  else
    { ({ scheduler with
          stopped := true
          epoch := scheduler.epoch + 1
          pendingPoll := false }).clearTimer with
      subscribed := false
      drainPromise := some scheduler.inFlightPoll }

/-- Without a gid, the metadata of all tasks is invalid. -/
def metadataChanged (scheduler : PollingScheduler Stats Status Task) :
    Option String → PollingScheduler Stats Status Task
  | none =>
      let scheduler := scheduler.note .invalidated
      if scheduler.subscribed then
        { scheduler with epoch := scheduler.epoch + 1 }
      else scheduler
  | some _ => if scheduler.subscribed then scheduler.requestPoll else scheduler

def timerFires (scheduler : PollingScheduler Stats Status Task)
    (handle : Nat) : PollingScheduler Stats Status Task :=
  if scheduler.timers.any (·.handle = handle) then
    ({ scheduler with
        timers := scheduler.timers.filter fun armed => armed.handle != handle
        timer := none }).poll
  else scheduler

/-! ## A poll -/

def setPoll (scheduler : PollingScheduler Stats Status Task) (id : Nat)
    (phase : PollPhase Status Task) : PollingScheduler Stats Status Task :=
  { scheduler with
    polls := scheduler.polls.map fun run =>
      if run.id = id then { run with phase := phase } else run }

/-- What a request was made under has passed. -/
def outdated (scheduler : PollingScheduler Stats Status Task) (epoch : Nat) :
    Bool :=
  scheduler.stopped || epoch != scheduler.epoch

def publish (scheduler : PollingScheduler Stats Status Task) (id : Nat)
    (tasks : List Task) : PollingScheduler Stats Status Task :=
  (scheduler.note (.tasks id tasks .authoritativePoll)).setPoll id .updating

def reconcileMode (scheduler : PollingScheduler Stats Status Task) :
    Option Int → PollingScheduler Stats Status Task
  | none => scheduler
  | some numActive =>
      scheduler.switchMode (if 0 < numActive then .active else .idle)

def pollAnswered (host : Host RawStats Stats)
    (scheduler : PollingScheduler Stats Status Task)
    (run : PollRun Status Task) (rawStats : RawStats)
    (statuses : List Status) : PollingScheduler Stats Status Task :=
  if scheduler.outdated run.epoch then scheduler.setPoll run.id .settled
  else
    let counted := (scheduler.reconcileMode (host.numActive rawStats)).note
      (.stats run.id (host.translateGlobalStat rawStats))
    match statuses with
    | [] => counted.publish run.id []
    | _ => counted.setPoll run.id (.hydrating statuses [])

/-- The metadata of at most four tasks is read at a time. -/
def batchHydrated (scheduler : PollingScheduler Stats Status Task)
    (run : PollRun Status Task) (rest : List Status) (tasks : List Task)
    (batch : List (Option Task)) : PollingScheduler Stats Status Task :=
  if scheduler.outdated run.epoch then scheduler.setPoll run.id .settled
  else
    let tasks := tasks ++ batch.filterMap id
    match rest.drop 4 with
    | [] => scheduler.publish run.id tasks
    | rest => scheduler.setPoll run.id (.hydrating rest tasks)

/-- The `finally` of a poll. -/
def pollSettled (scheduler : PollingScheduler Stats Status Task) (id : Nat) :
    PollingScheduler Stats Status Task :=
  let scheduler :=
    { scheduler with
      polls := scheduler.polls.filter fun run => run.id != id
      inFlightPoll := if scheduler.inFlightPoll = some id then none
        else scheduler.inFlightPoll
      polling := false }
  if scheduler.stopped then scheduler
  else if scheduler.pendingPoll then
    ({ scheduler with pendingPoll := false }).poll
  else if scheduler.timer.isNone then scheduler.scheduleNext
  else scheduler

/-! ## A notification -/

def setSync (scheduler : PollingScheduler Stats Status Task) (id : Nat)
    (phase : SyncPhase) : PollingScheduler Stats Status Task :=
  { scheduler with
    syncs := scheduler.syncs.map fun run =>
      if run.id = id then { run with phase := phase } else run }

def dropSync (scheduler : PollingScheduler Stats Status Task) (id : Nat) :
    PollingScheduler Stats Status Task :=
  { scheduler with syncs := scheduler.syncs.filter fun run => run.id != id }

def syncNotifiedTask (scheduler : PollingScheduler Stats Status Task)
    (gid : String) (stops : Bool) : PollingScheduler Stats Status Task :=
  { scheduler with
    syncs := scheduler.syncs ++
      [⟨scheduler.fresh, gid, stops, scheduler.epoch, .tellStatus⟩]
    log := scheduler.log ++ [.asked scheduler.fresh]
    fresh := scheduler.fresh + 1 }

def handleNotification (scheduler : PollingScheduler Stats Status Task)
    (method gid : String) : PollingScheduler Stats Status Task :=
  if scheduler.stopped then scheduler
  else if startNotifications.contains method then
    (scheduler.switchMode .active).syncNotifiedTask gid false
  else if stopNotifications.contains method then
    scheduler.syncNotifiedTask gid true
  else scheduler

def statusAnswered (scheduler : PollingScheduler Stats Status Task)
    (run : SyncRun) : PollingScheduler Stats Status Task :=
  scheduler.setSync run.id
    (if scheduler.outdated run.epoch then .synced else .hydrating)

def taskHydrated (scheduler : PollingScheduler Stats Status Task)
    (run : SyncRun) (task : Option Task) :
    PollingScheduler Stats Status Task :=
  if scheduler.outdated run.epoch then scheduler.setSync run.id .synced
  else
    match task with
    | none => scheduler.setSync run.id .synced
    | some task =>
        (scheduler.note (.tasks run.id [task] .notification)).setSync run.id
          .updating

/-- After a stop notification the mode is checked first. -/
def syncContinues (scheduler : PollingScheduler Stats Status Task)
    (run : SyncRun) : PollingScheduler Stats Status Task :=
  if scheduler.stopped then scheduler.dropSync run.id
  else if run.stops then scheduler.setSync run.id .globalStat
  else (scheduler.dropSync run.id).requestPoll

/-- `checkAndSwitchMode`: the answer may have been asked for in an earlier
epoch, and it only changes the mode. -/
def modeChecked (host : Host RawStats Stats)
    (scheduler : PollingScheduler Stats Status Task) (run : SyncRun)
    (rawStats : RawStats) : PollingScheduler Stats Status Task :=
  if scheduler.stopped then scheduler.setSync run.id .checked
  else if host.numActive rawStats = some 0 then
    (scheduler.switchMode .idle).setSync run.id .checked
  else scheduler.setSync run.id .checked

/-! ## Events -/

inductive Event (RawStats Status Task : Type) where
  | start
  | stop
  | metadataChanged (gid : Option String)
  | notification (method gid : String)
  | timerFires (handle : Nat)
  | multicallAnswered (poll : Nat) (rawStats : RawStats)
      (statuses : List Status)
  | batchHydrated (poll : Nat) (batch : List (Option Task))
  | tasksUpdated (poll : Nat)
  | pollFailed (poll : Nat)
  | pollSettled (poll : Nat)
  | statusAnswered (sync : Nat)
  | taskHydrated (sync : Nat) (task : Option Task)
  | taskUpdated (sync : Nat)
  | syncFailed (sync : Nat)
  | syncContinues (sync : Nat)
  | globalStatAnswered (sync : Nat) (rawStats : RawStats)
  | globalStatFailed (sync : Nat)

def onPoll (scheduler : PollingScheduler Stats Status Task) (id : Nat)
    (next : PollRun Status Task → PollingScheduler Stats Status Task) :
    PollingScheduler Stats Status Task :=
  match scheduler.polls.find? (·.id = id) with
  | none => scheduler
  | some run => next run

def onSync (scheduler : PollingScheduler Stats Status Task) (id : Nat)
    (next : SyncRun → PollingScheduler Stats Status Task) :
    PollingScheduler Stats Status Task :=
  match scheduler.syncs.find? (·.id = id) with
  | none => scheduler
  | some run => next run

/-- An answer that nobody waits for changes nothing. -/
def step (host : Host RawStats Stats)
    (scheduler : PollingScheduler Stats Status Task) :
    Event RawStats Status Task → PollingScheduler Stats Status Task
  | .start => scheduler.start
  | .stop => scheduler.stopAndDrain
  | .metadataChanged gid => scheduler.metadataChanged gid
  | .notification method gid => scheduler.handleNotification method gid
  | .timerFires handle => scheduler.timerFires handle
  | .multicallAnswered id rawStats statuses => scheduler.onPoll id fun run =>
      match run.phase with
      | .multicall => scheduler.pollAnswered host run rawStats statuses
      | _ => scheduler
  | .batchHydrated id batch => scheduler.onPoll id fun run =>
      match run.phase with
      | .hydrating rest tasks => scheduler.batchHydrated run rest tasks batch
      | _ => scheduler
  | .tasksUpdated id => scheduler.onPoll id fun run =>
      match run.phase with
      | .updating => scheduler.setPoll run.id .settled
      | _ => scheduler
  | .pollFailed id => scheduler.onPoll id fun run =>
      scheduler.setPoll run.id .settled
  | .pollSettled id => scheduler.onPoll id fun run =>
      match run.phase with
      | .settled => scheduler.pollSettled run.id
      | _ => scheduler
  | .statusAnswered id => scheduler.onSync id fun run =>
      match run.phase with
      | .tellStatus => scheduler.statusAnswered run
      | _ => scheduler
  | .taskHydrated id task => scheduler.onSync id fun run =>
      match run.phase with
      | .hydrating => scheduler.taskHydrated run task
      | _ => scheduler
  | .taskUpdated id => scheduler.onSync id fun run =>
      match run.phase with
      | .updating => scheduler.setSync run.id .synced
      | _ => scheduler
  | .syncFailed id => scheduler.onSync id fun run =>
      match run.phase with
      | .tellStatus | .hydrating | .updating => scheduler.setSync run.id .synced
      | _ => scheduler
  | .syncContinues id => scheduler.onSync id fun run =>
      match run.phase with
      | .synced => scheduler.syncContinues run
      | .checked =>
          if scheduler.stopped then scheduler.dropSync run.id
          else (scheduler.dropSync run.id).requestPoll
      | _ => scheduler
  | .globalStatAnswered id rawStats => scheduler.onSync id fun run =>
      match run.phase with
      | .globalStat => scheduler.modeChecked host run rawStats
      | _ => scheduler
  | .globalStatFailed id => scheduler.onSync id fun run =>
      match run.phase with
      | .globalStat => scheduler.setSync run.id .checked
      | _ => scheduler

def run (host : Host RawStats Stats)
    (events : List (Event RawStats Status Task)) :
    PollingScheduler Stats Status Task :=
  events.foldl (step host) {}

end PollingScheduler

end Motrix.Polling
