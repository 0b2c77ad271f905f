import Motrix.Download.SegmentDownloader
import Motrix.Lib.InFlight

/-!
# The jobs of a run

Every job that was submitted is in one place: with an operation, with the
engine, or among the completed ones.  A slot is taken for each of the first
two.
-/

namespace Motrix.Download

open Motrix.Lib

def Operation.job? : Operation → Option Nat
  | .adding job => some job
  | .added job _ => some job
  | .removing _ job => some job
  | .sizing _ job _ => some job
  | .purging _ job _ _ => some job
  | .clearing _ job _ => some job

def activeEntry (entry : String × Nat) : Option Nat :=
  some entry.2

/-- The jobs that are submitted and not settled. -/
def submittedJobs (state : RunState) : Multiset Nat :=
  held Operation.job? state.operations + held activeEntry state.activeJobs

/-- The jobs that the run has reported as completed, as often as it has. -/
def completedJobs (state : RunState) : List Nat :=
  (state.progress.filter (·.completed)).map (·.index)

def playingJobs (state : RunState) : Multiset Nat :=
  submittedJobs state + completedJobs state

structure JobSound (config : Config) (state : RunState) : Prop where
  distinct : (playingJobs state).Nodup
  bounded : ∀ job ∈ playingJobs state, job < state.nextJob
  planned : state.nextJob ≤ config.jobs.length
  counted : state.completed = (completedJobs state).length
  slots : (submittedJobs state).card ≤ config.concurrency
  taken : state.cancelled = false →
    ((submittedJobs state).card : Int) ≤ state.running
  running : state.running ≤ config.concurrency
  resolved : ∀ result, state.outcome = .resolved result →
    result = buildResult config.jobs ∧
      ∀ job < config.jobs.length, job ∈ completedJobs state

/-- Nothing but the submitted jobs and their slots differs. -/
structure SameRest (state next : RunState) : Prop where
  completedJobs : completedJobs next = completedJobs state
  completed : next.completed = state.completed
  nextJob : next.nextJob = state.nextJob
  cancelled : next.cancelled = false → state.cancelled = false
  outcome : ∀ result, next.outcome = .resolved result →
    state.outcome = .resolved result

theorem settle_rejected {state : RunState} {message : String}
    {result : RunResult}
    (resolved : (settle state (.rejected message)).outcome =
      .resolved result) : state.outcome = .resolved result := by
  unfold settle at resolved
  by_cases pending : state.outcome = .pending
  · simp only [if_pos pending] at resolved
    cases resolved
  · simp only [if_neg pending] at resolved
    exact resolved

namespace JobSound

variable {config : Config} {state next : RunState}

theorem released (sound : JobSound config state) (gone : Multiset Nat)
    (rest : SameRest state next)
    (jobs : submittedJobs next + gone ≤ submittedJobs state)
    (running : next.running = state.running - gone.card) :
    JobSound config next := by
  have fewer : submittedJobs next ≤ submittedJobs state :=
    (Multiset.le_add_right _ gone).trans jobs
  have playing : playingJobs next ≤ playingJobs state := by
    unfold playingJobs
    rw [rest.completedJobs]
    exact add_le_add_left fewer _
  have cards := Multiset.card_le_card jobs
  rw [Multiset.card_add] at cards
  refine ⟨Multiset.nodup_of_le playing sound.distinct, ?_, ?_, ?_, ?_, ?_, ?_,
    ?_⟩
  · intro job member
    rw [rest.nextJob]
    exact sound.bounded job (Multiset.mem_of_le playing member)
  · rw [rest.nextJob]
    exact sound.planned
  · rw [rest.completed, rest.completedJobs]
    exact sound.counted
  · exact (Multiset.card_le_card fewer).trans sound.slots
  · intro playing
    have slots := sound.taken (rest.cancelled playing)
    omega
  · have slots := sound.running
    omega
  · intro result resolved
    rw [rest.completedJobs]
    exact sound.resolved result (rest.outcome result resolved)

/-- Jobs move from place to place. -/
theorem moved (sound : JobSound config state) (rest : SameRest state next)
    (jobs : submittedJobs next ≤ submittedJobs state)
    (running : next.running = state.running) : JobSound config next := by
  apply sound.released 0 rest
  · rw [add_zero]
    exact jobs
  · rw [running, Multiset.card_zero]
    exact (sub_zero _).symm

/-- After a cancellation slots are given back before their jobs are. -/
theorem abandoned (sound : JobSound config state)
    (rest : SameRest state next)
    (jobs : submittedJobs next = submittedJobs state)
    (cancelled : next.cancelled = true)
    (running : next.running ≤ state.running) : JobSound config next := by
  have playing : playingJobs next = playingJobs state := by
    unfold playingJobs
    rw [rest.completedJobs, jobs]
  constructor
  · rw [playing]
    exact sound.distinct
  · rw [playing, rest.nextJob]
    exact sound.bounded
  · rw [rest.nextJob]
    exact sound.planned
  · rw [rest.completed, rest.completedJobs]
    exact sound.counted
  · rw [jobs]
    exact sound.slots
  · intro open'
    rw [cancelled] at open'
    cases open'
  · exact running.trans sound.running
  · intro result resolved
    rw [rest.completedJobs]
    exact sound.resolved result (rest.outcome result resolved)

theorem failed (sound : JobSound config state) (message : String) :
    JobSound config (fail state message) :=
  sound.moved ⟨rfl, rfl, rfl, id, fun _ => settle_rejected⟩ (le_refl _) rfl

/-- A job that is nowhere takes a free slot. -/
theorem submitted (sound : JobSound config state) {job : Nat}
    (absent : job ∉ playingJobs state) (small : job < state.nextJob)
    (free : state.running < config.concurrency) :
    JobSound config (submitJob state job) := by
  unfold submitJob
  by_cases cancelled : state.cancelled = true
  · rw [if_pos cancelled]
    exact sound
  rw [if_neg cancelled]
  have jobs : submittedJobs (addOperation
      { state with running := state.running + 1 } (.adding job)) =
        {job} + submittedJobs state := by
    show held Operation.job? (state.operations ++ [.adding job]) + _ = _
    rw [held_concat]
    show held _ _ + {job} + _ = _
    unfold submittedJobs
    abel
  have playing : playingJobs (addOperation
      { state with running := state.running + 1 } (.adding job)) =
        job ::ₘ playingJobs state := by
    unfold playingJobs
    rw [jobs, add_assoc]
    rfl
  have slots := sound.taken (Bool.eq_false_iff.mpr cancelled)
  refine ⟨?_, ?_, sound.planned, sound.counted, ?_, ?_, ?_, sound.resolved⟩
  · rw [playing]
    exact Multiset.nodup_cons.mpr ⟨absent, sound.distinct⟩
  · intro other member
    rw [playing] at member
    rcases Multiset.mem_cons.mp member with rfl | earlier
    · exact small
    · exact sound.bounded other earlier
  · rw [jobs, Multiset.card_add, Multiset.card_singleton]
    omega
  · intro _
    rw [jobs, Multiset.card_add, Multiset.card_singleton]
    show ((1 + (submittedJobs state).card : Nat) : Int) ≤ state.running + 1
    omega
  · show state.running + 1 ≤ _
    omega

theorem drainedLoop (fuel : Nat) (sound : JobSound config state) :
    JobSound config (drainLoop config fuel state) := by
  induction fuel generalizing state with
  | zero => exact sound
  | succ fuel induction =>
      unfold drainLoop
      by_cases free : state.running < config.concurrency ∧
          state.nextJob < config.jobs.length
      · rw [if_pos free]
        apply induction
        have advanced : JobSound config
            { state with nextJob := state.nextJob + 1 } := by
          refine ⟨sound.distinct, ?_, free.2, sound.counted, sound.slots,
            sound.taken, sound.running, sound.resolved⟩
          intro job member
          exact Nat.lt_succ_of_lt (sound.bounded job member)
        apply advanced.submitted
        · intro member
          exact Nat.lt_irrefl _ (sound.bounded _ member)
        · exact Nat.lt_succ_self _
        · exact free.1
      · rw [if_neg free]
        exact sound

theorem drained (sound : JobSound config state) :
    JobSound config (drain config state) :=
  sound.drainedLoop _

/-- When as many jobs are completed as there are, all of them are. -/
theorem allCompleted (sound : JobSound config state)
    (done : state.completed = config.jobs.length) :
    ∀ job < config.jobs.length, job ∈ completedJobs state := by
  intro job small
  have part : (completedJobs state : Multiset Nat) ≤ playingJobs state :=
    Multiset.le_add_left _ _
  apply Multiset.mem_coe.mp
  apply mem_of_card (Multiset.nodup_of_le part sound.distinct) _ _ small
  · intro item member
    exact Nat.lt_of_lt_of_le
      (sound.bounded item (Multiset.mem_of_le part member)) sound.planned
  · rw [Multiset.coe_card, ← sound.counted, done]

theorem finished (sound : JobSound config state) :
    JobSound config (resolveWhenDone config state) := by
  unfold resolveWhenDone
  by_cases done : state.completed = config.jobs.length
  · rw [if_pos done]
    refine ⟨sound.distinct, sound.bounded, sound.planned, sound.counted,
      sound.slots, sound.taken, sound.running, ?_⟩
    intro result resolved
    refine ⟨?_, sound.allCompleted done⟩
    by_cases pending : state.outcome = .pending
    · have equal : (Outcome.resolved (buildResult config.jobs)) =
          .resolved result := by
        have chosen : (settle (stopPolling state)
            (.resolved (buildResult config.jobs))).outcome =
              .resolved (buildResult config.jobs) := if_pos pending
        rw [← chosen, resolved]
      cases equal
      rfl
    · have kept : state.outcome = .resolved result := by
        have chosen : (settle (stopPolling state)
            (.resolved (buildResult config.jobs))).outcome =
              state.outcome := if_neg pending
        rw [← chosen, resolved]
      exact (sound.resolved result kept).1
  · rw [if_neg done]
    exact sound

/-- A submitted job is counted as completed, and its slot is free again. -/
theorem completes (sound : JobSound config state) {job : Nat}
    (jobs : submittedJobs next + {job} ≤ submittedJobs state)
    (done : completedJobs next = completedJobs state ++ [job])
    (completed : next.completed = state.completed + 1)
    (nextJob : next.nextJob = state.nextJob)
    (cancelled : next.cancelled = false → state.cancelled = false)
    (running : next.running = state.running - 1)
    (outcome : next.outcome = state.outcome) : JobSound config next := by
  have playing : playingJobs next ≤ playingJobs state := by
    unfold playingJobs
    rw [done, ← Multiset.coe_add]
    calc submittedJobs next + (↑(completedJobs state) + ↑[job])
        = submittedJobs next + {job} + completedJobs state := by
          rw [Multiset.coe_singleton]
          abel
      _ ≤ submittedJobs state + completedJobs state := add_le_add_left jobs _
  have cards := Multiset.card_le_card jobs
  rw [Multiset.card_add, Multiset.card_singleton] at cards
  have all := sound.slots
  refine ⟨Multiset.nodup_of_le playing sound.distinct, ?_, ?_, ?_, ?_, ?_, ?_,
    ?_⟩
  · intro other member
    rw [nextJob]
    exact sound.bounded other (Multiset.mem_of_le playing member)
  · rw [nextJob]
    exact sound.planned
  · rw [completed, done, List.length_append, List.length_singleton,
      sound.counted]
  · omega
  · intro playing
    have slots := sound.taken (cancelled playing)
    omega
  · have slots := sound.running
    omega
  · intro result resolved
    rw [outcome] at resolved
    obtain ⟨built, all⟩ := sound.resolved result resolved
    refine ⟨built, ?_⟩
    intro other small
    rw [done]
    exact List.mem_append_left _ (all other small)

/-- A job that is given back is nowhere. -/
theorem gone (sound : JobSound config state) (rest : SameRest state next)
    {job : Nat}
    (jobs : submittedJobs next + {job} ≤ submittedJobs state) :
    job ∉ playingJobs next ∧ job < next.nextJob := by
  have playing : playingJobs next + {job} ≤ playingJobs state := by
    unfold playingJobs
    rw [rest.completedJobs]
    calc submittedJobs next + ↑(completedJobs state) + {job}
        = submittedJobs next + {job} + completedJobs state := by abel
      _ ≤ submittedJobs state + completedJobs state := add_le_add_left jobs _
  have distinct := Multiset.nodup_of_le playing sound.distinct
  rw [add_comm, Multiset.singleton_add, Multiset.nodup_cons] at distinct
  refine ⟨distinct.1, ?_⟩
  rw [rest.nextJob]
  apply sound.bounded
  apply Multiset.mem_of_le playing
  exact Multiset.mem_add.mpr (.inr (Multiset.mem_singleton_self job))

end JobSound

/-! ## What the steps change -/

/-- The states differ in sizes and removals only. -/
structure SameWork (state next : RunState) : Prop where
  cancelled : next.cancelled = state.cancelled
  cancelPhase : next.cancelPhase = state.cancelPhase
  activeJobs : next.activeJobs = state.activeJobs
  settlingGids : next.settlingGids = state.settlingGids
  completed : next.completed = state.completed
  running : next.running = state.running
  nextJob : next.nextJob = state.nextJob
  operations : next.operations = state.operations
  outcome : next.outcome = state.outcome
  progress : next.progress = state.progress
  returned : next.returned = state.returned

theorem SameWork.refl (state : RunState) : SameWork state state :=
  ⟨rfl, rfl, rfl, rfl, rfl, rfl, rfl, rfl, rfl, rfl, rfl⟩

theorem SameWork.trans {first second third : RunState}
    (one : SameWork first second) (two : SameWork second third) :
    SameWork first third where
  cancelled := two.cancelled.trans one.cancelled
  cancelPhase := two.cancelPhase.trans one.cancelPhase
  activeJobs := two.activeJobs.trans one.activeJobs
  settlingGids := two.settlingGids.trans one.settlingGids
  completed := two.completed.trans one.completed
  running := two.running.trans one.running
  nextJob := two.nextJob.trans one.nextJob
  operations := two.operations.trans one.operations
  outcome := two.outcome.trans one.outcome
  progress := two.progress.trans one.progress
  returned := two.returned.trans one.returned

theorem recordSize_same (state : RunState) (job size : Nat) :
    SameWork state (recordSize state job size) := by
  unfold recordSize
  by_cases none : size = 0
  · rw [if_pos none]
    exact .refl state
  · rw [if_neg none]
    exact ⟨rfl, rfl, rfl, rfl, rfl, rfl, rfl, rfl, rfl, rfl, rfl⟩

theorem beginPurge_same (state : RunState) (gid : String) (job : Nat)
    (status : Option Status) (seen : Option Seen) :
    SameWork state (beginPurge state gid job status seen).1 := by
  have same := recordSize_same state job
    (finalSize status seen (state.knownSize job))
  exact ⟨same.cancelled, same.cancelPhase, same.activeJobs,
    same.settlingGids, same.completed, same.running, same.nextJob,
    same.operations, same.outcome, same.progress, same.returned⟩

section Places

variable {state : RunState} {index : Nat} {operation : Operation}

theorem endOperation_submitted
    (found : state.operations[index]? = some operation) :
    submittedJobs (endOperation state index) +
      own Operation.job? operation = submittedJobs state := by
  unfold submittedJobs
  rw [← held_eraseIdx Operation.job? found]
  show held _ (state.operations.eraseIdx index) + held _ state.activeJobs +
    _ = _
  abel

theorem setOperation_submitted
    (found : state.operations[index]? = some operation) {next : Operation}
    (same : next.job? = operation.job?) :
    submittedJobs (setOperation state index next) = submittedJobs state := by
  unfold submittedJobs
  rw [← held_set_same Operation.job? found same]
  rfl

theorem activeJob_entry {gid : String} {job : Nat}
    (active : activeJob state gid = some job) :
    ∃ entry, state.activeJobs.find? (·.1 == gid) = some entry ∧
      entry.2 = job := by
  unfold activeJob at active
  exact Option.map_eq_some_iff.mp active

theorem dropActive_submitted {gid : String} {job : Nat}
    (active : activeJob state gid = some job) :
    submittedJobs (dropActive state gid) + {job} ≤ submittedJobs state := by
  obtain ⟨entry, found, rfl⟩ := activeJob_entry active
  have entries := held_filter activeEntry found
  have mine : own activeEntry entry = {entry.2} := rfl
  rw [mine] at entries
  unfold submittedJobs
  rw [add_assoc]
  exact add_le_add_right entries _

theorem setEntry_held (gid : String) (job : Nat)
    (entries : List (String × Nat)) :
    held activeEntry (setEntry gid job entries) ≤
      held activeEntry entries + {job} := by
  induction entries with
  | nil => exact le_of_eq (zero_add _).symm
  | cons entry entries induction =>
      have mine : own activeEntry (gid, job) = {job} := rfl
      rw [setEntry, held_cons]
      split_ifs
      · rw [held_cons, mine, add_comm]
        exact add_le_add_left (Multiset.le_add_left _ _) _
      · rw [held_cons, add_assoc]
        exact add_le_add_right induction _

end Places

/-! ## Steps -/

section Steps

variable {config : Config} {state : RunState}

/-- A job goes over from the engine to an operation. -/
theorem settling_sound (sound : JobSound config state) {gid : String}
    {job : Nat} (active : activeJob state gid = some job) (next : RunState)
    (operation : Operation) (holds : operation.job? = some job)
    (work : next.operations = state.operations ∧
      next.activeJobs = (dropActive state gid).activeJobs)
    (rest : SameRest state next) (running : next.running = state.running) :
    JobSound config (addOperation next operation) := by
  have jobs : submittedJobs (addOperation next operation) =
      submittedJobs (dropActive state gid) + {job} := by
    have mine : own Operation.job? operation = {job} := by
      unfold own
      rw [holds]
      rfl
    unfold submittedJobs
    show held _ (next.operations ++ [operation]) + held _ next.activeJobs = _
    rw [held_concat, work.1, work.2, mine]
    show held _ state.operations + {job} + _ = held _ state.operations + _ + _
    abel
  apply sound.moved
  · exact ⟨rest.completedJobs, rest.completed, rest.nextJob, rest.cancelled,
        rest.outcome⟩
  · rw [jobs]
    exact dropActive_submitted active
  · exact running

theorem SameWork.rest {next : RunState} (same : SameWork state next) :
    SameRest state next where
  completedJobs := by
    unfold completedJobs
    rw [same.progress]
  completed := same.completed
  nextJob := same.nextJob
  cancelled playing := same.cancelled.symm.trans playing
  outcome _ resolved := same.outcome.symm.trans resolved

theorem onComplete_sound (sound : JobSound config state) (gid : String) :
    JobSound config (onComplete state gid) := by
  unfold onComplete
  cases active : activeJob state gid with
  | none => exact sound
  | some job =>
      simp only
      split_ifs with unsized
      · exact settling_sound sound active (addSettling (dropActive state gid)
          gid) (.sizing gid job (state.lastSeen gid)) rfl ⟨rfl, rfl⟩
          ⟨rfl, rfl, rfl, id, fun _ resolved => resolved⟩ rfl
      · have same := beginPurge_same (addSettling (dropActive state gid) gid)
          gid job none (state.lastSeen gid)
        have rest := same.rest
        exact settling_sound sound active _ (.purging gid job _ false) rfl
          ⟨same.operations, same.activeJobs⟩
          ⟨rest.completedJobs, rest.completed, rest.nextJob, rest.cancelled,
        rest.outcome⟩
          same.running

theorem completedJobs_reportFile {file : FileProgress}
    (partial' : file.completed = false) :
    completedJobs (reportFile state file) = completedJobs state := by
  unfold completedJobs
  show ((state.progress ++ [file]).filter (·.completed)).map (·.index) = _
  rw [List.filter_append, List.filter_cons_of_neg (by rw [partial']; decide),
    List.filter_nil, List.append_nil]

theorem completedJobs_completed {file : FileProgress}
    (completed : file.completed = true) :
    completedJobs (reportFile state file) =
      completedJobs state ++ [file.index] := by
  unfold completedJobs
  show ((state.progress ++ [file]).filter (·.completed)).map (·.index) = _
  rw [List.filter_append, List.filter_cons_of_pos completed, List.map_append]
  rfl

theorem onError_sound (sound : JobSound config state) (gid : String) :
    JobSound config (onError state gid) := by
  unfold onError
  cases active : activeJob state gid with
  | none => exact sound
  | some job =>
      simp only
      let settling := setSeen (addSettling (dropActive state gid) gid) gid none
      let file : FileProgress :=
        { index := job
          downloadedBytes := 0
          totalBytes := (state.knownSize job).getD 0
          completed := false }
      exact settling_sound sound active
        (askRemoval (reportFile settling file) gid) (.clearing gid job false)
        rfl ⟨rfl, rfl⟩
        ⟨completedJobs_reportFile rfl, rfl, rfl, id,
          fun _ resolved => resolved⟩ rfl

theorem pollAnswer_same (statuses : String → Option Status)
    (state : RunState) (gid : String) :
    let next := pollAnswer statuses state gid
    next.operations = state.operations ∧
      next.activeJobs = state.activeJobs ∧
      SameRest state next ∧ next.running = state.running := by
  rcases pollAnswer_cases statuses state gid with
    unchanged | ⟨job, size, seen, file, -, open', counted⟩
  · rw [unchanged]
    exact ⟨rfl, rfl, ⟨rfl, rfl, rfl, id, fun _ resolved => resolved⟩, rfl⟩
  · rw [counted]
    have same := recordSize_same state job size
    have rest := same.rest
    refine ⟨same.operations, same.activeJobs, ?_, same.running⟩
    exact ⟨(completedJobs_reportFile open').trans rest.completedJobs,
      rest.completed, rest.nextJob, rest.cancelled, rest.outcome⟩

theorem pollAnswers_sound (statuses : String → Option Status)
    (gids : List String) (sound : JobSound config state) :
    JobSound config (gids.foldl (pollAnswer statuses) state) := by
  induction gids generalizing state with
  | nil => exact sound
  | cons gid gids induction =>
      apply induction
      obtain ⟨operations, active, rest, running⟩ :=
        pollAnswer_same statuses state gid
      apply sound.moved rest _ running
      unfold submittedJobs
      rw [operations, active]

theorem addUriContinued_sound (sound : JobSound config state) {index job : Nat}
    {gid : String}
    (found : state.operations[index]? = some (.added job gid)) :
    JobSound config (addUriContinued state index job gid) := by
  have ended := endOperation_submitted found
  have mine : own Operation.job? (.added job gid) = {job} := rfl
  rw [mine] at ended
  unfold addUriContinued
  by_cases cancelled : state.cancelled = true
  · rw [if_pos cancelled]
    apply sound.abandoned
    · exact ⟨rfl, rfl, rfl, id, fun _ resolved => resolved⟩
    · exact setOperation_submitted found rfl
    · exact cancelled
    · show state.running - 1 ≤ state.running
      omega
  · rw [if_neg cancelled]
    apply sound.moved
    · exact ⟨rfl, rfl, rfl, id, fun _ resolved => resolved⟩
    · rw [← ended]
      unfold submittedJobs
      rw [add_assoc]
      exact add_le_add_right (setEntry_held gid job state.activeJobs) _
    · rfl

theorem retryJob_sound {before : RunState} (sound : JobSound config before)
    {gid : String} {job : Nat}
    (jobs : submittedJobs state + {job} ≤ submittedJobs before)
    (rest : SameRest before state) (running : state.running = before.running) :
    JobSound config (retryJob config state gid job) := by
  have released : ∀ next : RunState, submittedJobs next =
      submittedJobs state → SameRest before next →
      next.running = before.running - 1 → JobSound config next := by
    intro next same restNext slots
    apply sound.released {job} restNext
    · rw [same]
      exact jobs
    · exact slots
  have free : before.running - 1 < config.concurrency := by
    have bound := sound.running
    omega
  have slots : state.running - 1 = before.running - 1 := by rw [running]
  have restSame : ∀ next : RunState, next.progress = state.progress →
      next.completed = state.completed → next.nextJob = state.nextJob →
      next.cancelled = state.cancelled → next.outcome = state.outcome →
      SameRest before next := by
    intro next progress completed nextJob cancelled outcome
    refine ⟨?_, completed.trans rest.completed, nextJob.trans rest.nextJob,
      fun playing => rest.cancelled (cancelled.symm.trans playing), ?_⟩
    · rw [← rest.completedJobs]
      unfold completedJobs
      rw [progress]
    · intro result resolved
      exact rest.outcome result (outcome.symm.trans resolved)
  unfold retryJob
  simp only
  split_ifs
  · exact released _ rfl (restSame _ rfl rfl rfl rfl rfl) slots
  · have ready := released
      { dropSettling state gid with
        running := state.running - 1
        retriesLeft := fun other =>
          if other = job then state.retriesLeft job - 1
          else state.retriesLeft other }
      rfl (restSame _ rfl rfl rfl rfl rfl) slots
    obtain ⟨absent, small⟩ := sound.gone rest jobs
    apply ready.submitted absent small
    show state.running - 1 < _
    rw [slots]
    exact free
  · exact (released
      { dropSettling state gid with running := state.running - 1 } rfl
      (restSame _ rfl rfl rfl rfl rfl) slots).failed _

theorem completeJob_sound {before : RunState} (sound : JobSound config before)
    {gid : String} {job size : Nat}
    (jobs : submittedJobs state + {job} ≤ submittedJobs before)
    (rest : SameRest before state) (running : state.running = before.running)
    (outcome : state.outcome = before.outcome) :
    JobSound config (completeJob config state gid job size) := by
  unfold completeJob
  simp only
  split_ifs
  · apply sound.moved
    · exact ⟨rest.completedJobs, rest.completed, rest.nextJob, rest.cancelled,
        rest.outcome⟩
    · exact (Multiset.le_add_right _ {job}).trans jobs
    · exact running
  · apply JobSound.finished
    apply JobSound.drained
    apply sound.completes
    · exact jobs
    · rw [← rest.completedJobs]
      exact completedJobs_completed rfl
    · show state.completed + 1 = _
      rw [rest.completed]
    · exact rest.nextJob
    · exact rest.cancelled
    · show state.running - 1 = _
      rw [running]
    · exact outcome

theorem removalSettled_sound (sound : JobSound config state) {index : Nat}
    {operation : Operation}
    (found : state.operations[index]? = some operation) (removed : Bool) :
    JobSound config (removalSettled config state index removed operation) := by
  have ended := endOperation_submitted found
  have rest : SameRest state (endOperation state index) :=
    ⟨rfl, rfl, rfl, id, fun _ resolved => resolved⟩
  have without : JobSound config (endOperation state index) := by
    apply sound.moved rest _ rfl
    rw [← ended]
    exact Multiset.le_add_right _ _
  have again : ∀ (gid : String) (next : Operation),
      next.job? = operation.job? →
      JobSound config (setOperation (askRemoval state gid) index next) := by
    intro gid next same
    apply sound.moved
    · exact ⟨rfl, rfl, rfl, id, fun _ resolved => resolved⟩
    · exact le_of_eq (setOperation_submitted found same)
    · rfl
  cases operation with
  | adding job => exact sound
  | added job gid => exact sound
  | sizing gid job seen => exact sound
  | removing gid => exact without
  | purging gid job size second =>
      unfold removalSettled
      simp only
      split_ifs
      · exact completeJob_sound sound (le_of_eq ended) rest rfl rfl
      · exact without.failed _
      · exact again gid _ rfl
  | clearing gid job second =>
      unfold removalSettled
      simp only
      split_ifs
      · exact retryJob_sound sound (le_of_eq ended) rest rfl
      · exact without.failed _
      · exact again gid _ rfl

theorem applyEvent_sound (sound : JobSound config state) (event : RunEvent) :
    JobSound config (applyEvent config state event) := by
  have same : ∀ next : RunState, next.operations = state.operations →
      next.activeJobs = state.activeJobs → SameRest state next →
      next.running = state.running → JobSound config next := by
    intro next operations active rest running
    apply sound.moved rest _ running
    unfold submittedJobs
    rw [operations, active]
  cases event with
  | complete gid => exact onComplete_sound sound gid
  | error gid => exact onError_sound sound gid
  | addUriCreated index gid =>
      simp only [applyEvent]
      cases found : state.operations[index]? with
      | none => exact sound
      | some operation =>
          cases operation with
          | adding job =>
              apply sound.moved
              · exact ⟨rfl, rfl, rfl, id, fun _ resolved => resolved⟩
              · exact le_of_eq (setOperation_submitted found rfl)
              · rfl
          | _ => exact sound
  | addUriContinued index =>
      simp only [applyEvent]
      cases found : state.operations[index]? with
      | none => exact sound
      | some operation =>
          cases operation with
          | added job gid => exact addUriContinued_sound sound found
          | _ => exact sound
  | addUriRejected index message =>
      simp only [applyEvent]
      cases found : state.operations[index]? with
      | none => exact sound
      | some operation =>
          cases operation with
          | adding job =>
              have ended := endOperation_submitted found
              have released : JobSound config (endOperation
                  { state with running := state.running - 1 } index) := by
                apply sound.released {job}
                · exact ⟨rfl, rfl, rfl, id, fun _ resolved => resolved⟩
                · exact le_of_eq ended
                · rfl
              simp only [addUriRejected]
              split_ifs
              · exact released
              · exact released.failed message
          | _ => exact sound
  | statusRead index status =>
      simp only [applyEvent]
      cases found : state.operations[index]? with
      | none => exact sound
      | some operation =>
          cases operation with
          | sizing gid job seen =>
              have work := beginPurge_same state gid job status seen
              have rest := work.rest
              have kept := found
              rw [← work.operations] at kept
              apply JobSound.moved (same _ work.operations work.activeJobs
                rest work.running)
              · exact ⟨rfl, rfl, rfl, id, fun _ resolved => resolved⟩
              · exact le_of_eq (setOperation_submitted kept rfl)
              · rfl
          | _ => exact sound
  | removalSettled index removed =>
      simp only [applyEvent]
      cases found : state.operations[index]? with
      | none => exact sound
      | some operation => exact removalSettled_sound sound found removed
  | pollStarted =>
      simp only [applyEvent, pollStarted]
      split_ifs
      · exact sound
      · exact sound
      · exact same _ rfl rfl ⟨rfl, rfl, rfl, id, fun _ resolved => resolved⟩ rfl
  | pollSettled statuses =>
      simp only [applyEvent, pollSettled]
      cases state.polling with
      | none => exact sound
      | some gids =>
          apply (pollAnswers_sound statuses gids sound).moved
          · exact ⟨rfl, rfl, rfl, id, fun _ resolved => resolved⟩
          · exact le_refl _
          · rfl
  | cancel =>
      simp only [applyEvent, cancel]
      cases state.cancelPhase with
      | none =>
          exact same _ rfl rfl ⟨rfl, rfl, rfl, nofun,
            fun _ => settle_rejected⟩ rfl
      | _ => exact sound
  | cancelRemovalsSettled =>
      simp only [applyEvent]
      split_ifs
      · exact same _ rfl rfl ⟨rfl, rfl, rfl, id, fun _ resolved => resolved⟩ rfl
      · exact sound
  | cancelDrained =>
      simp only [applyEvent, cancelDrained]
      split_ifs
      · apply sound.moved
        · exact ⟨rfl, rfl, rfl, id, fun _ resolved => resolved⟩
        · unfold submittedJobs
          exact add_le_add_right (Multiset.zero_le _) _
        · rfl
      · exact sound

theorem JobSound.planned_of_mem (sound : JobSound config state) {job : Nat}
    (member : job ∈ submittedJobs state) : job < config.jobs.length := by
  apply Nat.lt_of_lt_of_le _ sound.planned
  apply sound.bounded
  exact Multiset.mem_add.mpr (.inl member)

theorem JobSound.activePlanned (sound : JobSound config state) {gid : String}
    {job : Nat} (active : activeJob state gid = some job) :
    job < config.jobs.length := by
  apply sound.planned_of_mem
  apply Multiset.mem_of_le (dropActive_submitted active)
  exact Multiset.mem_add.mpr (.inr (Multiset.mem_singleton_self job))

theorem JobSound.operationPlanned (sound : JobSound config state)
    {index job : Nat} {operation : Operation}
    (found : state.operations[index]? = some operation)
    (holds : operation.job? = some job) : job < config.jobs.length := by
  apply sound.planned_of_mem
  rw [← endOperation_submitted found]
  apply Multiset.mem_add.mpr (.inr _)
  unfold own
  rw [holds]
  exact Multiset.mem_singleton_self job

end Steps

/-! ## Runs -/

theorem recordDeclared_same (jobs : List Job) (state : RunState) :
    SameWork state (jobs.foldl recordDeclared state) := by
  induction jobs generalizing state with
  | nil => exact .refl state
  | cons job jobs induction =>
      have first := recordSize_same state job.jobIndex job.declaredSize
      exact first.trans (induction _)

theorem buildResult_nil : buildResult [] = ⟨none, []⟩ := by
  unfold buildResult
  rw [List.mergeSort_nil]
  rfl

theorem startRun_sound (config : Config) :
    JobSound config (startRun config) := by
  unfold startRun
  by_cases none : config.jobs = []
  · rw [if_pos none]
    refine ⟨Multiset.nodup_zero, nofun, Nat.zero_le _, rfl, Nat.zero_le _,
      fun _ => le_refl _, Int.natCast_nonneg _, ?_⟩
    intro result same
    cases same
    rw [none]
    exact ⟨buildResult_nil.symm, nofun⟩
  · rw [if_neg none]
    apply JobSound.drained
    have same := recordDeclared_same config.jobs {}
    have work := same.rest
    have empty : JobSound config {} :=
      ⟨Multiset.nodup_zero, nofun, Nat.zero_le _, rfl, Nat.zero_le _,
        fun _ => le_refl _, Int.natCast_nonneg _, nofun⟩
    apply empty.moved work _ same.running
    unfold submittedJobs
    rw [same.operations, same.activeJobs]

theorem runEvents_sound (config : Config) (events : List RunEvent) :
    JobSound config (runEvents config events) :=
  List.foldlRecOn events (applyEvent config) (startRun_sound config)
    fun _ sound event _ => applyEvent_sound sound event

end Motrix.Download
