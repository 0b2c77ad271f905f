import Mathlib.Algebra.BigOperators.Group.Finset.Piecewise
import Motrix.Download.SegmentGids
import Motrix.Download.SegmentJobs

/-!
# Runs of the segment downloader

What the jobs, the sizes and the gids of a run come to, whatever the order of
its events.
-/

namespace Motrix.Download

open Motrix.Lib Motrix.Media

/-! ## The result of a plan -/

def planPath (tmpDir : String) (index : Nat) : String :=
  tmpDir ++ "/" ++ padIndex index

/-- The paths of the parts of a plan, in the order of the plan. -/
def planResult (tmpDir : String) (plan : SegmentPlan) : RunResult :=
  { initPath := plan.init.map fun _ => planPath tmpDir 0
    partPaths := plan.segments.mapIdx fun index _ =>
      planPath tmpDir (index + plan.init.toList.length) }

def plannedJob (tmpDir : String) (index : Nat) (part : JobKind × Nat) : Job :=
  { jobIndex := index
    kind := part.1
    outPath := planPath tmpDir index
    declaredSize := part.2 }

theorem mapIdx_sorted (tmpDir : String) (parts : List (JobKind × Nat))
    (offset : Nat) :
    (parts.mapIdx fun index part =>
      plannedJob tmpDir (index + offset) part).Pairwise
        fun left right => left.jobIndex ≤ right.jobIndex := by
  induction parts generalizing offset with
  | nil => exact .nil
  | cons part parts induction =>
      rw [List.mapIdx_cons]
      constructor
      · intro job member
        obtain ⟨index, _, rfl⟩ := List.mem_mapIdx.mp member
        show 0 + offset ≤ index + 1 + offset
        omega
      · have shifted := induction (offset + 1)
        simp only [← Nat.add_assoc, Nat.add_right_comm _ offset 1] at shifted
        exact shifted

theorem buildJobs_sorted (tmpDir : String) (plan : SegmentPlan) :
    (buildJobs tmpDir plan).Pairwise
      fun left right => left.jobIndex ≤ right.jobIndex :=
  mapIdx_sorted tmpDir (planParts plan) 0

theorem collectSegments (tmpDir : String) (segments : List MediaPart)
    (offset : Nat) (result : RunResult) :
    ((segments.map fun part =>
      (JobKind.segment, declaredSize part.byteRange)).mapIdx
        fun index part => plannedJob tmpDir (index + offset) part).foldl
          collectPath result =
      { result with
        partPaths := result.partPaths ++
          segments.mapIdx fun index _ =>
            planPath tmpDir (index + offset) } := by
  induction segments generalizing offset result with
  | nil => rw [List.mapIdx_nil, List.append_nil]; rfl
  | cons part segments induction =>
      rw [List.map_cons, List.mapIdx_cons, List.foldl_cons, List.mapIdx_cons]
      have rest := induction (offset + 1)
        (collectPath result (plannedJob tmpDir (0 + offset)
          (.segment, declaredSize part.byteRange)))
      simp only [← Nat.add_assoc, Nat.add_right_comm _ offset 1] at rest
      rw [rest]
      show RunResult.mk _ (result.partPaths ++ [planPath tmpDir (0 + offset)] ++
        _) = _
      rw [List.append_assoc]
      rfl

theorem buildResult_buildJobs (tmpDir : String) (plan : SegmentPlan) :
    buildResult (buildJobs tmpDir plan) = planResult tmpDir plan := by
  unfold buildResult
  rw [List.mergeSort_of_pairwise (by simpa using buildJobs_sorted tmpDir plan)]
  unfold buildJobs planParts planResult
  rw [List.mapIdx_append, List.foldl_append, List.length_map]
  rw [show (fun index (part : JobKind × Nat) =>
      ({ jobIndex := index + plan.init.toList.length
         kind := part.1
         outPath := tmpDir ++ "/" ++ padIndex (index + plan.init.toList.length)
         declaredSize := part.2 } : Job)) =
      fun index part => plannedJob tmpDir (index + plan.init.toList.length)
        part from rfl]
  rw [collectSegments]
  cases plan.init with
  | none => rfl
  | some part => rfl

/-! ## Sizes -/

/-- The known sizes of the planned jobs. -/
def knownTotal (config : Config) (state : RunState) : Int :=
  ∑ job ∈ Finset.range config.jobs.length, ((state.knownSize job).getD 0 : Int)

def SizeSound (config : Config) (state : RunState) : Prop :=
  state.knownBytes = knownTotal config state

namespace SizeSound

variable {config : Config} {state next : RunState}

/-- A size that is recorded takes the place of the one that was known. -/
theorem recorded (sound : SizeSound config state) {job : Nat} (size : Nat)
    (planned : job < config.jobs.length) :
    SizeSound config (recordSize state job size) := by
  unfold recordSize
  by_cases none : size = 0
  · rw [if_pos none]
    exact sound
  rw [if_neg none]
  let known (other : Nat) : Int := (state.knownSize other).getD 0
  have changed : ∀ other : Nat,
      (((if other = job then some size else state.knownSize other).getD 0 :
        Nat) : Int) =
      known other + if other = job then size - known job else 0 := by
    intro other
    by_cases same : other = job
    · rw [if_pos same, if_pos same, same, Option.getD_some]
      ring
    · rw [if_neg same, if_neg same, add_zero]
  unfold SizeSound knownTotal
  simp only [changed]
  rw [Finset.sum_add_distrib, Finset.sum_ite_eq' ,
    if_pos (Finset.mem_range.mpr planned)]
  have before : state.knownBytes =
      ∑ other ∈ Finset.range config.jobs.length, known other := sound
  rw [← before]
  show state.knownBytes + size - known job = _
  ring

theorem submitted (sound : SizeSound config state) (job : Nat) :
    SizeSound config (submitJob state job) := by
  unfold submitJob
  split_ifs
  · exact sound
  · exact sound

theorem drained (sound : SizeSound config state) :
    SizeSound config (drain config state) := by
  unfold drain
  induction config.jobs.length - state.nextJob generalizing state with
  | zero => exact sound
  | succ fuel induction =>
      unfold drainLoop
      split_ifs
      · have advanced : SizeSound config
            { state with nextJob := state.nextJob + 1 } := sound
        exact induction (advanced.submitted state.nextJob)
      · exact sound

theorem finished (sound : SizeSound config state) :
    SizeSound config (resolveWhenDone config state) := by
  unfold resolveWhenDone
  split_ifs
  · exact sound
  · exact sound

theorem onComplete (sound : SizeSound config state)
    (jobs : JobSound config state) (gid : String) :
    SizeSound config (onComplete state gid) := by
  unfold Download.onComplete
  cases active : activeJob state gid with
  | none => exact sound
  | some job =>
      simp only
      split_ifs
      · exact sound
      · have settling : SizeSound config
            (addSettling (dropActive state gid) gid) := sound
        exact settling.recorded _ (jobs.activePlanned active)

theorem onError (sound : SizeSound config state) (gid : String) :
    SizeSound config (onError state gid) := by
  unfold Download.onError
  cases activeJob state gid with
  | none => exact sound
  | some job => exact sound

theorem completeJob (sound : SizeSound config state) (gid : String)
    (job size : Nat) :
    SizeSound config (completeJob config state gid job size) := by
  unfold Download.completeJob
  simp only
  split_ifs
  · exact sound
  · apply finished
    apply drained
    exact sound

theorem retryJob (sound : SizeSound config state) (gid : String) (job : Nat) :
    SizeSound config (retryJob config state gid job) := by
  unfold Download.retryJob
  simp only
  split_ifs
  · exact sound
  · apply submitted
    exact sound
  · exact sound

theorem removalSettled (sound : SizeSound config state) (index : Nat)
    (removed : Bool) (operation : Operation) :
    SizeSound config (removalSettled config state index removed operation) := by
  have ended : SizeSound config (endOperation state index) := sound
  cases operation with
  | adding job => exact sound
  | added job gid => exact sound
  | sizing gid job seen => exact sound
  | removing gid job => exact sound
  | purging gid job size again =>
      unfold Download.removalSettled
      simp only
      split_ifs
      · exact ended.completeJob gid job size
      · exact sound
      · exact sound
  | clearing gid job again =>
      unfold Download.removalSettled
      simp only
      split_ifs
      · exact ended.retryJob gid job
      · exact sound
      · exact sound

theorem pollAnswered (sound : SizeSound config state)
    (jobs : JobSound config state) (statuses : String → Option Status)
    (gid : String) : SizeSound config (pollAnswer statuses state gid) := by
  rcases pollAnswer_cases statuses state gid with
    unchanged | ⟨job, size, seen, file, active, -, counted⟩
  · rw [unchanged]
    exact sound
  · rw [counted]
    exact sound.recorded size (jobs.activePlanned active)

theorem pollsAnswered (sound : SizeSound config state)
    (jobs : JobSound config state) (statuses : String → Option Status)
    (gids : List String) :
    SizeSound config (gids.foldl (pollAnswer statuses) state) := by
  induction gids generalizing state with
  | nil => exact sound
  | cons gid gids induction =>
      exact induction (sound.pollAnswered jobs statuses gid)
        (pollAnswers_sound statuses [gid] jobs)

theorem applyEvent (sound : SizeSound config state)
    (jobs : JobSound config state) (event : RunEvent) :
    SizeSound config (applyEvent config state event) := by
  cases event with
  | addUriCreated index gid =>
      simp only [Download.applyEvent]
      split
      · exact sound
      · exact sound
  | addUriContinued index =>
      simp only [Download.applyEvent, addUriContinued]
      split
      · split_ifs
        · exact sound
        · exact sound
      · exact sound
  | addUriRejected index message =>
      simp only [Download.applyEvent, addUriRejected]
      split
      · split_ifs
        · exact sound
        · exact sound
      · exact sound
  | complete gid => exact sound.onComplete jobs gid
  | error gid => exact sound.onError gid
  | statusRead index status =>
      simp only [Download.applyEvent]
      cases found : state.operations[index]? with
      | none => exact sound
      | some operation =>
          cases operation with
          | sizing gid job seen =>
              exact sound.recorded _ (jobs.operationPlanned found rfl)
          | _ => exact sound
  | removalSettled index removed =>
      simp only [Download.applyEvent]
      split
      · exact sound.removalSettled index removed _
      · exact sound
  | pollStarted =>
      simp only [Download.applyEvent, pollStarted]
      split_ifs
      · exact sound
      · exact sound
      · exact sound
  | pollSettled statuses =>
      simp only [Download.applyEvent, pollSettled]
      split
      · exact sound
      · exact sound.pollsAnswered jobs statuses _
  | cancel =>
      simp only [Download.applyEvent, cancel]
      split
      · exact sound
      · exact sound
  | cancelRemovalsSettled =>
      simp only [Download.applyEvent]
      split_ifs
      · exact sound
      · exact sound
  | cancelDrained =>
      simp only [Download.applyEvent, cancelDrained]
      split_ifs
      · exact sound
      · exact sound

end SizeSound

/-- The jobs of a plan are numbered by their places. -/
def Numbered (config : Config) : Prop :=
  ∀ job ∈ config.jobs, job.jobIndex < config.jobs.length

theorem buildJobs_numbered (tmpDir : String) (plan : SegmentPlan)
    (concurrency : Nat) : Numbered ⟨buildJobs tmpDir plan, concurrency⟩ := by
  intro job member
  obtain ⟨index, small, rfl⟩ := List.mem_mapIdx.mp member
  show index < (buildJobs tmpDir plan).length
  unfold buildJobs
  rw [List.length_mapIdx]
  exact small

theorem startRun_sizes {config : Config} (numbered : Numbered config) :
    SizeSound config (startRun config) := by
  have empty : ∀ state : RunState, state.knownBytes = 0 →
      state.knownSize = (fun _ => none) → SizeSound config state := by
    intro state bytes sizes
    unfold SizeSound knownTotal
    rw [bytes, sizes]
    exact Finset.sum_const_zero.symm
  unfold startRun
  split_ifs
  · exact empty _ rfl rfl
  · apply SizeSound.drained
    exact List.foldlRecOn config.jobs recordDeclared (empty {} rfl rfl)
      fun _ sound job member => sound.recorded _ (numbered job member)

theorem runEvents_sizes {config : Config} (numbered : Numbered config)
    (events : List RunEvent) : SizeSound config (runEvents config events) := by
  have both := List.foldlRecOn events (applyEvent config)
    (motive := fun state => JobSound config state ∧ SizeSound config state)
    ⟨startRun_sound config, startRun_sizes numbered⟩
    fun _ sound event _ =>
      ⟨applyEvent_sound sound.1 event, sound.2.applyEvent sound.1 event⟩
  exact both.2

/-! ## The run as a whole -/

/-- Whatever the order of the events: a job is counted once, the run is only
resolved with all of its jobs and the paths of the plan, the slots bound the
jobs under way, the sizes add up, and a finished cancellation leaves no
operation behind and no gid that was not asked to be removed. -/
theorem segmentRun_accounts (tmpDir : String) (plan : SegmentPlan)
    (concurrency : Nat) (events : List RunEvent) :
    let config : Config := ⟨buildJobs tmpDir plan, concurrency⟩
    let state := runEvents config events
    (completedJobs state).Nodup ∧
    (∀ job ∈ completedJobs state, job < config.jobs.length) ∧
    state.completed = (completedJobs state).length ∧
    (∀ result, state.outcome = .resolved result →
      result = planResult tmpDir plan ∧
        ∀ job < config.jobs.length, job ∈ completedJobs state) ∧
    (submittedJobs state).card ≤ concurrency ∧
    state.knownBytes = knownTotal config state ∧
    (state.cancelPhase = .done → state.operations = [] ∧
      ∀ gid ∈ state.returned, gid ∈ state.removals) := by
  intro config state
  have jobs : JobSound config state := runEvents_sound config events
  have gids : GidSound state := runEvents_gids config events
  have completed : (completedJobs state : Multiset Nat) ≤ playingJobs state :=
    Multiset.le_add_left _ _
  refine ⟨?_, ?_, jobs.counted, ?_, jobs.slots, ?_, ?_⟩
  · exact Multiset.coe_nodup.mp (Multiset.nodup_of_le completed jobs.distinct)
  · intro job member
    apply Nat.lt_of_lt_of_le _ jobs.planned
    exact jobs.bounded job (Multiset.mem_of_le completed member)
  · intro result resolved
    obtain ⟨built, all⟩ := jobs.resolved result resolved
    exact ⟨built.trans (buildResult_buildJobs tmpDir plan), all⟩
  · exact runEvents_sizes (buildJobs_numbered tmpDir plan concurrency) events
  · intro done
    obtain ⟨operations, -⟩ := gids.drained done
    refine ⟨operations, ?_⟩
    intro gid member
    cases gids.placed gid member with
    | asked removal => exact removal
    | added job waiting =>
        rw [operations] at waiting
        cases waiting
    | active phase _ =>
        rw [done] at phase
        cases phase
    | settling phase _ =>
        rw [done] at phase
        cases phase

/-- Whatever the order of the events: a job is in one place and its slot is
counted, a gid that the engine has answered with is never lost, and only gids
whose removal is asked for are purged. -/
theorem runEvents_placed (config : Config) (events : List RunEvent) :
    let state := runEvents config events
    (playingJobs state).Nodup ∧
    (∀ job ∈ playingJobs state, job < state.nextJob) ∧
    (state.cancelled = false →
      ((submittedJobs state).card : Int) ≤ state.running ∧
        state.running ≤ config.concurrency) ∧
    (∀ gid ∈ state.returned, Placed state gid) ∧
    ∀ operation ∈ state.operations, ∀ gid, operation.purged? = some gid →
      gid ∈ state.removals := by
  intro state
  have jobs : JobSound config state := runEvents_sound config events
  have gids : GidSound state := runEvents_gids config events
  exact ⟨jobs.distinct, jobs.bounded,
    fun cancelled => ⟨jobs.taken cancelled, jobs.running⟩, gids.placed,
    gids.asked⟩

end Motrix.Download

/-!
# A run and its engine

The engine creates downloads of its own gids and reports the end of each of
them once, at any time after it has created it.  A report about a gid that is
not registered is passed over.
-/

namespace Motrix.Download

open Motrix.Lib Motrix.Media

/-- A run with the downloads whose end the engine has not reported yet. -/
structure EngineState where
  run : RunState
  live : List String

/-- What the engine does in a run that is not cancelled. -/
def engineAllows (state : EngineState) : RunEvent → Prop
  | .addUriCreated index gid => gid ∉ state.run.returned ∧
      ∃ job, state.run.operations[index]? = some (.adding job)
  | .complete gid => gid ∈ state.live
  | .error gid => gid ∈ state.live
  | .cancel => False
  | .cancelRemovalsSettled => False
  | .cancelDrained => False
  | _ => True

def engineStep (config : Config) (state : EngineState) (event : RunEvent) :
    EngineState :=
  { run := applyEvent config state.run event
    live :=
      match event with
      | .addUriCreated _ gid => state.live ++ [gid]
      | .complete gid => state.live.erase gid
      | .error gid => state.live.erase gid
      | _ => state.live }

/-- The states of the runs whose steps all meet a condition. -/
inductive EngineRun (config : Config)
    (condition : EngineState → RunEvent → Prop) : EngineState → Prop where
  | start : EngineRun config condition ⟨startRun config, []⟩
  | step {state : EngineState} {event : RunEvent}
      (earlier : EngineRun config condition state)
      (allowed : engineAllows state event)
      (met : condition state event) :
      EngineRun config condition (engineStep config state event)

/-- Nothing is left that could go on: the engine has reported the end of all
that it created, and no operation and no poll waits. -/
def Idle (state : EngineState) : Prop :=
  state.live = [] ∧ state.run.operations = [] ∧ state.run.polling = none

/-- The report of the engine finds its gid registered. -/
def Registered (state : EngineState) : RunEvent → Prop
  | .complete gid => gid ∈ activeGids state.run
  | .error gid => gid ∈ activeGids state.run
  | _ => True

/-! ## What is counted -/

/-- Nothing that is counted differs. -/
structure SameCount (state next : RunState) : Prop where
  cancelled : next.cancelled = state.cancelled
  activeJobs : next.activeJobs = state.activeJobs
  completed : next.completed = state.completed
  running : next.running = state.running
  nextJob : next.nextJob = state.nextJob
  operations : next.operations = state.operations
  outcome : next.outcome = state.outcome
  returned : next.returned = state.returned

theorem SameWork.count {state next : RunState} (same : SameWork state next) :
    SameCount state next :=
  ⟨same.cancelled, same.activeJobs, same.completed, same.running,
    same.nextJob, same.operations, same.outcome, same.returned⟩

namespace SameCount

variable {first second third : RunState}

theorem refl (state : RunState) : SameCount state state :=
  ⟨rfl, rfl, rfl, rfl, rfl, rfl, rfl, rfl⟩

theorem trans (one : SameCount first second) (two : SameCount second third) :
    SameCount first third where
  cancelled := two.cancelled.trans one.cancelled
  activeJobs := two.activeJobs.trans one.activeJobs
  completed := two.completed.trans one.completed
  running := two.running.trans one.running
  nextJob := two.nextJob.trans one.nextJob
  operations := two.operations.trans one.operations
  outcome := two.outcome.trans one.outcome
  returned := two.returned.trans one.returned

theorem pollAnswered (statuses : String → Option Status) (state : RunState)
    (gid : String) : SameCount state (pollAnswer statuses state gid) := by
  rcases pollAnswer_cases statuses state gid with
    unchanged | ⟨job, size, seen, file, -, -, counted⟩
  · rw [unchanged]
    exact .refl state
  · rw [counted]
    exact (recordSize_same state job size).count.trans
      ⟨rfl, rfl, rfl, rfl, rfl, rfl, rfl, rfl⟩

theorem pollsAnswered (statuses : String → Option Status)
    (gids : List String) (state : RunState) :
    SameCount state (gids.foldl (pollAnswer statuses) state) :=
  List.foldlRecOn gids (pollAnswer statuses) (.refl state)
    fun _ same gid _ => same.trans (pollAnswered statuses _ gid)

end SameCount

/-! ## Settled runs -/

theorem settle_outcome {state : RunState} {outcome : Outcome}
    (final : outcome ≠ .pending) :
    (settle state outcome).outcome ≠ .pending := by
  unfold settle
  by_cases pending : state.outcome = .pending
  · simp only [if_pos pending]
    exact final
  · simp only [if_neg pending]
    exact pending

/-- A run that is settled stays settled. -/
def StaysSettled (state next : RunState) : Prop :=
  state.outcome ≠ .pending → next.outcome ≠ .pending

namespace StaysSettled

theorem ofEq {first second : RunState}
    (same : second.outcome = first.outcome) : StaysSettled first second := by
  intro settled
  rw [same]
  exact settled

theorem settles (state : RunState) (outcome : Outcome) :
    StaysSettled state (settle (stopPolling state) outcome) := by
  intro settled
  show (if state.outcome = .pending then outcome else state.outcome) ≠ _
  rw [if_neg settled]
  exact settled

theorem submitted (state : RunState) (job : Nat) :
    StaysSettled state (submitJob state job) := by
  unfold submitJob
  split_ifs
  · exact id
  · exact id

theorem drained (config : Config) (fuel : Nat) (state : RunState) :
    StaysSettled state (drainLoop config fuel state) := by
  induction fuel generalizing state with
  | zero => exact id
  | succ fuel induction =>
      unfold drainLoop
      split_ifs
      · intro settled
        exact induction _ (submitted _ _ settled)
      · exact id

theorem released (config : Config) (state : RunState) :
    StaysSettled state (releaseSlot config state) :=
  drained config _ { state with running := state.running - 1 }

theorem resolvedWhenDone (config : Config) (state : RunState) :
    StaysSettled state (resolveWhenDone config state) := by
  unfold resolveWhenDone
  split_ifs
  · exact settles state _
  · exact id

theorem completed (config : Config) (state : RunState) (gid : String)
    (job size : Nat) :
    StaysSettled state (completeJob config state gid job size) := by
  unfold completeJob
  simp only
  split_ifs
  · exact id
  · intro settled
    exact resolvedWhenDone config _ (released config _ settled)

theorem retried (config : Config) (state : RunState) (gid : String)
    (job : Nat) : StaysSettled state (retryJob config state gid job) := by
  unfold retryJob
  simp only
  split_ifs
  · exact id
  · exact fun settled => submitted _ job settled
  · exact fun settled => settles _ _ settled

theorem removed (config : Config) (state : RunState) (index : Nat)
    (gone : Bool) (operation : Operation) : StaysSettled state
      (removalSettled config state index gone operation) := by
  cases operation with
  | purging gid job size again =>
      unfold removalSettled
      simp only
      split_ifs
      · exact completed config (endOperation state index) gid job size
      · exact settles (endOperation state index) _
      · exact id
  | clearing gid job again =>
      unfold removalSettled
      simp only
      split_ifs
      · exact retried config (endOperation state index) gid job
      · exact settles (endOperation state index) _
      · exact id
  | _ => exact id

theorem purgeBegun (state : RunState) (gid : String) (job : Nat)
    (status : Option Status) (seen : Option Seen) :
    StaysSettled state (beginPurge state gid job status seen).1 :=
  ofEq (beginPurge_same state gid job status seen).outcome

theorem applyEvent (config : Config) (state : RunState) (event : RunEvent) :
    StaysSettled state (applyEvent config state event) := by
  cases event with
  | addUriCreated index gid =>
      simp only [Download.applyEvent]
      split
      · exact id
      · exact id
  | addUriContinued index =>
      simp only [Download.applyEvent, addUriContinued]
      split
      · split_ifs
        · exact id
        · exact id
      · exact id
  | addUriRejected index message =>
      simp only [Download.applyEvent, addUriRejected]
      split
      · split_ifs
        · exact id
        · exact fun settled => settles _ _ settled
      · exact id
  | complete gid =>
      simp only [Download.applyEvent, onComplete]
      split
      · exact id
      · split_ifs
        · exact id
        · exact purgeBegun (addSettling (dropActive state gid) gid) gid _ _ _
  | error gid =>
      simp only [Download.applyEvent, onError]
      split
      · exact id
      · exact id
  | statusRead index status =>
      simp only [Download.applyEvent]
      cases state.operations[index]? with
      | none => exact id
      | some operation =>
          cases operation with
          | sizing gid job seen => exact purgeBegun state gid job status seen
          | _ => exact id
  | removalSettled index gone =>
      simp only [Download.applyEvent]
      split
      · exact removed config state index gone _
      · exact id
  | pollStarted =>
      simp only [Download.applyEvent, pollStarted]
      split_ifs
      · exact id
      · exact id
      · exact id
  | pollSettled statuses =>
      simp only [Download.applyEvent, pollSettled]
      split
      · exact id
      · exact ofEq (SameCount.pollsAnswered statuses _ state).outcome
  | cancel =>
      simp only [Download.applyEvent, cancel]
      split
      · exact fun settled => settles _ _ settled
      · exact id
  | cancelRemovalsSettled =>
      simp only [Download.applyEvent]
      split_ifs
      · exact id
      · exact id
  | cancelDrained =>
      simp only [Download.applyEvent, cancelDrained]
      split_ifs
      · exact id
      · exact id

end StaysSettled

end Motrix.Download
