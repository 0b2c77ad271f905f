import Motrix.Media.SegmentPlan

/-!
# The segment downloader

One run of the downloader over a plan.  Its asynchronous operations are kept in
a list with the point each of them waits at; an event lets one of them go on,
or comes from the engine, the poll timer or `cancel`.  Byte counts are exact.
-/

namespace Motrix.Download

open Motrix.Media

/-! ## Jobs -/

inductive JobKind where
  | init
  | segment
  deriving DecidableEq, Repr

structure Job where
  jobIndex : Nat
  kind : JobKind
  outPath : String
  declaredSize : Nat
  deriving DecidableEq, Repr

def maxSelfRetries : Nat := 3

def padIndex (index : Nat) : String :=
  String.ofList (List.replicate (6 - (toString index).length) '0') ++
    toString index ++ ".seg"

/-- A range of unknown length declares no size. -/
def declaredSize (byteRange : Option ByteRange) : Nat :=
  (byteRange.bind (·.length)).getD 0

def planParts (plan : SegmentPlan) : List (JobKind × Nat) :=
  plan.init.toList.map (fun part => (.init, declaredSize part.byteRange)) ++
    plan.segments.map (fun part => (.segment, declaredSize part.byteRange))

def buildJobs (tmpDir : String) (plan : SegmentPlan) : List Job :=
  (planParts plan).mapIdx fun index part =>
    { jobIndex := index
      kind := part.1
      outPath := tmpDir ++ "/" ++ padIndex index
      declaredSize := part.2 }

structure RunResult where
  initPath : Option String
  partPaths : List String
  deriving DecidableEq, Repr

def collectPath (result : RunResult) (job : Job) : RunResult :=
  match job.kind with
  | .init => { result with initPath := some job.outPath }
  | .segment => { result with partPaths := result.partPaths ++ [job.outPath] }

def buildResult (jobs : List Job) : RunResult :=
  (jobs.mergeSort fun left right => left.jobIndex ≤ right.jobIndex).foldl
    collectPath ⟨none, []⟩

/-! ## State -/

structure Seen where
  completed : Nat
  total : Nat
  deriving DecidableEq, Repr

structure Status where
  completedLength : Nat
  totalLength : Nat
  deriving DecidableEq, Repr

/-- Where an operation waits: for the engine to create a download, for its
answer to be handled, for the final size of a segment, or for a removal. -/
inductive Operation where
  | adding (job : Nat)
  | added (job : Nat) (gid : String)
  | removing (gid : String) (job : Nat)
  | sizing (gid : String) (job : Nat) (seen : Option Seen)
  | purging (gid : String) (job : Nat) (size : Nat) (again : Bool)
  | clearing (gid : String) (job : Nat) (again : Bool)
  deriving DecidableEq, Repr

inductive Outcome where
  | pending
  | resolved (result : RunResult)
  | rejected (message : String)
  deriving DecidableEq, Repr

inductive CancelPhase where
  | none
  | removing
  | draining
  | done
  deriving DecidableEq, Repr

structure FileProgress where
  index : Nat
  downloadedBytes : Nat
  totalBytes : Nat
  completed : Bool
  deriving DecidableEq, Repr

/-- The fields of the downloader and the variables of its run.  `returned` and
`removals` are the gids that the engine has answered with and those that it
was asked to remove. -/
structure RunState where
  cancelled : Bool := false
  cancelPhase : CancelPhase := .none
  activeJobs : List (String × Nat) := []
  settlingGids : List String := []
  lastSeen : String → Option Seen := fun _ => none
  knownBytes : Int := 0
  knownParts : Nat := 0
  knownSize : Nat → Option Nat := fun _ => none
  retriesLeft : Nat → Nat := fun _ => maxSelfRetries
  completed : Nat := 0
  running : Int := 0
  nextJob : Nat := 0
  operations : List Operation := []
  pollRunning : Bool := true
  polling : Option (List String) := none
  outcome : Outcome := .pending
  progress : List FileProgress := []
  returned : List String := []
  removals : List String := []

structure Config where
  jobs : List Job
  concurrency : Nat

def activeJob (state : RunState) (gid : String) : Option Nat :=
  (state.activeJobs.find? (·.1 == gid)).map (·.2)

def activeGids (state : RunState) : List String :=
  state.activeJobs.map (·.1)

def dropActive (state : RunState) (gid : String) : RunState :=
  { state with activeJobs := state.activeJobs.filter (·.1 != gid) }

def setEntry (gid : String) (job : Nat) :
    List (String × Nat) → List (String × Nat)
  | [] => [(gid, job)]
  | entry :: entries =>
      if entry.1 = gid then (gid, job) :: entries
      else entry :: setEntry gid job entries

def setActive (state : RunState) (gid : String) (job : Nat) : RunState :=
  { state with activeJobs := setEntry gid job state.activeJobs }

def setSeen (state : RunState) (gid : String) (seen : Option Seen) :
    RunState :=
  { state with
    lastSeen := fun other => if other = gid then seen
      else state.lastSeen other }

def addSettling (state : RunState) (gid : String) : RunState :=
  { state with
    settlingGids :=
      if gid ∈ state.settlingGids then state.settlingGids
      else state.settlingGids ++ [gid] }

def dropSettling (state : RunState) (gid : String) : RunState :=
  { state with settlingGids := state.settlingGids.filter (· != gid) }

def askRemoval (state : RunState) (gid : String) : RunState :=
  { state with removals := state.removals ++ [gid] }

def addOperation (state : RunState) (operation : Operation) : RunState :=
  { state with operations := state.operations ++ [operation] }

def setOperation (state : RunState) (index : Nat) (operation : Operation) :
    RunState :=
  { state with operations := state.operations.set index operation }

def endOperation (state : RunState) (index : Nat) : RunState :=
  { state with operations := state.operations.eraseIdx index }

def reportFile (state : RunState) (file : FileProgress) : RunState :=
  { state with progress := state.progress ++ [file] }

/-- A promise is settled once. -/
def settle (state : RunState) (outcome : Outcome) : RunState :=
  { state with
    outcome := if state.outcome = .pending then outcome else state.outcome }

def stopPolling (state : RunState) : RunState :=
  { state with pollRunning := false }

def fail (state : RunState) (message : String) : RunState :=
  settle (stopPolling state) (.rejected message)

def recordSize (state : RunState) (job size : Nat) : RunState :=
  if size = 0 then
    state
  else
    { state with
      knownParts :=
        if (state.knownSize job).isNone then state.knownParts + 1
        else state.knownParts
      knownBytes := state.knownBytes + size - (state.knownSize job).getD 0
      knownSize := fun other => if other = job then some size
        else state.knownSize other }

/-! ## Slots -/

def submitJob (state : RunState) (job : Nat) : RunState :=
  if state.cancelled then
    state
  else
    addOperation { state with running := state.running + 1 } (.adding job)

/-- Submits jobs while there is a slot; at most `fuel` of them are left. -/
def drainLoop (config : Config) : Nat → RunState → RunState
  | 0, state => state
  | fuel + 1, state =>
      if state.running < config.concurrency ∧
          state.nextJob < config.jobs.length then
        drainLoop config fuel
          (submitJob { state with nextJob := state.nextJob + 1 } state.nextJob)
      else
        state

def drain (config : Config) (state : RunState) : RunState :=
  drainLoop config (config.jobs.length - state.nextJob) state

def releaseSlot (config : Config) (state : RunState) : RunState :=
  drain config { state with running := state.running - 1 }

def resolveWhenDone (config : Config) (state : RunState) : RunState :=
  if state.completed = config.jobs.length then
    settle (stopPolling state) (.resolved (buildResult config.jobs))
  else
    state

/-! ## Completion -/

/-- The first size that is known: the final one, the last polled one, the
declared one, or the bytes that have come. -/
def finalSize (status : Option Status) (seen : Option Seen)
    (known : Option Nat) : Nat :=
  ([(status.map (·.totalLength)).getD 0, (seen.map (·.total)).getD 0,
    known.getD 0, (status.map (·.completedLength)).getD 0,
    (seen.map (·.completed)).getD 0].find? (· != 0)).getD 0

/-- The size is recorded and the removal of the result is asked for. -/
def beginPurge (state : RunState) (gid : String) (job : Nat)
    (status : Option Status) (seen : Option Seen) : RunState × Operation :=
  let size := finalSize status seen (state.knownSize job)
  (askRemoval (recordSize state job size) gid, .purging gid job size false)

def onComplete (state : RunState) (gid : String) : RunState :=
  match activeJob state gid with
  | none => state
  | some job =>
      let settling := addSettling (dropActive state gid) gid
      let seen := state.lastSeen gid
      if (seen.map (·.total)).getD 0 = 0 then
        addOperation settling (.sizing gid job seen)
      else
        let begun := beginPurge settling gid job none seen
        addOperation begun.1 begun.2

def onError (state : RunState) (gid : String) : RunState :=
  match activeJob state gid with
  | none => state
  | some job =>
      let settling := setSeen (addSettling (dropActive state gid) gid) gid none
      let reported := reportFile settling
        { index := job
          downloadedBytes := 0
          totalBytes := (state.knownSize job).getD 0
          completed := false }
      addOperation (askRemoval reported gid) (.clearing gid job false)

/-- The result of a completed segment is gone. -/
def completeJob (config : Config) (state : RunState) (gid : String)
    (job size : Nat) : RunState :=
  let settled := dropSettling state gid
  if settled.cancelled then
    settled
  else
    let counted := setSeen
      { settled with completed := settled.completed + 1 } gid none
    let reported := reportFile counted
      { index := job
        downloadedBytes := size
        totalBytes := size
        completed := true }
    resolveWhenDone config (releaseSlot config reported)

def failedPermanently (config : Config) (job : Nat) : String :=
  "Segment download failed permanently: " ++
    ((config.jobs[job]?).map (·.outPath)).getD ""

/-- The result of a failed segment is gone. -/
def retryJob (config : Config) (state : RunState) (gid : String)
    (job : Nat) : RunState :=
  let settled := dropSettling state gid
  let released := { settled with running := settled.running - 1 }
  if released.cancelled then
    released
  else if released.retriesLeft job > 0 then
    submitJob
      { released with
        retriesLeft := fun other =>
          if other = job then released.retriesLeft job - 1
          else released.retriesLeft other } job
  else
    fail released (failedPermanently config job)

def purgeFailed (gid : String) : String :=
  "Failed to purge segment " ++ gid

/-! ## Events -/

inductive RunEvent where
  | addUriCreated (operation : Nat) (gid : String)
  | addUriContinued (operation : Nat)
  | addUriRejected (operation : Nat) (message : String)
  | complete (gid : String)
  | error (gid : String)
  | statusRead (operation : Nat) (status : Option Status)
  | removalSettled (operation : Nat) (removed : Bool)
  | pollStarted
  | pollSettled (statuses : String → Option Status)
  | cancel
  | cancelRemovalsSettled
  | cancelDrained

def addUriContinued (state : RunState) (index job : Nat) (gid : String) :
    RunState :=
  if state.cancelled then
    setOperation
      (askRemoval { state with running := state.running - 1 } gid) index
      (.removing gid job)
  else
    endOperation (setActive state gid job) index

def addUriRejected (state : RunState) (index : Nat) (message : String) :
    RunState :=
  let ended := endOperation { state with running := state.running - 1 } index
  if ended.cancelled then ended else fail ended message

def removalSettled (config : Config) (state : RunState) (index : Nat)
    (removed : Bool) : Operation → RunState
  | .removing _ _ => endOperation state index
  | .purging gid job size again =>
      if removed then
        completeJob config (endOperation state index) gid job size
      else if again then
        fail (endOperation state index) (purgeFailed gid)
      else
        setOperation (askRemoval state gid) index (.purging gid job size true)
  | .clearing gid job again =>
      if removed then
        retryJob config (endOperation state index) gid job
      else if again then
        fail (endOperation state index) (purgeFailed gid)
      else
        setOperation (askRemoval state gid) index (.clearing gid job true)
  | _ => state

def pollStarted (state : RunState) : RunState :=
  if !state.pollRunning || state.polling.isSome || state.cancelled then
    state
  else if activeGids state = [] then
    state
  else
    { state with polling := some (activeGids state) }

/-- One answer of a poll; a gid that is no longer active is passed over. -/
def pollAnswer (statuses : String → Option Status) (state : RunState)
    (gid : String) : RunState :=
  match activeJob state gid, statuses gid with
  | some job, some status =>
      if state.cancelled then
        state
      else
        let recorded := recordSize state job status.totalLength
        let totalBytes := (recorded.knownSize job).getD 0
        let downloadedBytes :=
          if totalBytes > 0 then min totalBytes status.completedLength
          else status.completedLength
        reportFile
          (setSeen recorded gid (some ⟨downloadedBytes, totalBytes⟩))
          { index := job
            downloadedBytes
            totalBytes
            completed := false }
  | _, _ => state

/-- An answer that counts leaves a size, what was seen and a file. -/
theorem pollAnswer_cases (statuses : String → Option Status)
    (state : RunState) (gid : String) :
    pollAnswer statuses state gid = state ∨
      ∃ job size seen file, activeJob state gid = some job ∧
        file.completed = false ∧
        pollAnswer statuses state gid =
          reportFile (setSeen (recordSize state job size) gid seen) file := by
  unfold pollAnswer
  cases activeJob state gid with
  | none => exact .inl rfl
  | some job =>
      cases statuses gid with
      | none => exact .inl rfl
      | some status =>
          by_cases cancelled : state.cancelled = true
          · exact .inl (if_pos cancelled)
          · exact .inr ⟨job, status.totalLength, _, _, rfl, rfl,
              if_neg cancelled⟩

def pollSettled (statuses : String → Option Status) (state : RunState) :
    RunState :=
  match state.polling with
  | none => state
  | some gids =>
      { gids.foldl (pollAnswer statuses) state with polling := none }

def cancelMessage : String := "SegmentDownloader: cancelled"

def cancel (state : RunState) : RunState :=
  match state.cancelPhase with
  | .none =>
      settle
        (stopPolling
          { state with
            cancelled := true
            cancelPhase := .removing
            removals := state.removals ++
              (activeGids state ++ state.settlingGids) })
        (.rejected cancelMessage)
  | _ => state

def cancelDrained (state : RunState) : RunState :=
  if state.cancelPhase = .draining ∧ state.operations = [] then
    { state with
      cancelPhase := .done
      activeJobs := []
      settlingGids := [] }
  else
    state

/-- An event that does not fit the state changes nothing. -/
def applyEvent (config : Config) (state : RunState) : RunEvent → RunState
  | .addUriCreated index gid =>
      match state.operations[index]? with
      | some (.adding job) =>
          setOperation { state with returned := state.returned ++ [gid] }
            index (.added job gid)
      | _ => state
  | .addUriContinued index =>
      match state.operations[index]? with
      | some (.added job gid) => addUriContinued state index job gid
      | _ => state
  | .addUriRejected index message =>
      match state.operations[index]? with
      | some (.adding _) => addUriRejected state index message
      | _ => state
  | .complete gid => onComplete state gid
  | .error gid => onError state gid
  | .statusRead index status =>
      match state.operations[index]? with
      | some (.sizing gid job seen) =>
          let begun := beginPurge state gid job status seen
          setOperation begun.1 index begun.2
      | _ => state
  | .removalSettled index removed =>
      match state.operations[index]? with
      | some operation => removalSettled config state index removed operation
      | none => state
  | .pollStarted => pollStarted state
  | .pollSettled statuses => pollSettled statuses state
  | .cancel => cancel state
  | .cancelRemovalsSettled =>
      if state.cancelPhase = .removing then
        { state with cancelPhase := .draining }
      else
        state
  | .cancelDrained => cancelDrained state

/-! ## Runs -/

def recordDeclared (state : RunState) (job : Job) : RunState :=
  recordSize state job.jobIndex job.declaredSize

/-- An empty plan is resolved at once. -/
def startRun (config : Config) : RunState :=
  if config.jobs = [] then
    { pollRunning := false
      outcome := .resolved ⟨none, []⟩ }
  else
    drain config (config.jobs.foldl recordDeclared {})

def runEvents (config : Config) (events : List RunEvent) : RunState :=
  events.foldl (applyEvent config) (startRun config)

end Motrix.Download
