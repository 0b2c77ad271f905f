import Motrix.Download.SegmentRuns

/-!
# A pending run

While a run is pending, each job that was taken from the plan holds a slot or
is completed, and the run waits for no gid that the engine is done with.
-/

namespace Motrix.Download

open Motrix.Lib

/-- The gid of a download whose creation is not handled yet. -/
def Operation.created? : Operation → Option String
  | .added _ gid => some gid
  | _ => none

/-- The gids whose end the run waits for. -/
def awaitedGids (state : RunState) : Multiset String :=
  held Operation.created? state.operations + activeGids state

/-- Every job that was taken from the plan is submitted or completed, but for
those that are owed a submission. -/
structure Counted (owed : Nat) (state : RunState) (live : List String) :
    Prop where
  cancelled : state.cancelled = false
  calm : ∀ gid job, .removing gid job ∉ state.operations
  counted : (submittedJobs state).card + state.completed + owed =
    state.nextJob
  slots : state.running = (submittedJobs state).card
  awaited : awaitedGids state ≤ (live : Multiset String)
  distinct : live.Nodup
  known : ∀ gid ∈ live, gid ∈ state.returned

structure OnTrack (config : Config) (state : EngineState) : Prop where
  counted : Counted 0 state.run state.live
  drained : (config.concurrency : Int) ≤ state.run.running ∨
    config.jobs.length ≤ state.run.nextJob
  unfinished : state.run.completed ≠ config.jobs.length

/-! ## Steps of a pending run -/

namespace Counted

variable {owed : Nat} {state next : RunState} {live : List String}

theorem same (counted : Counted owed state live)
    (same : SameCount state next) : Counted owed next live where
  cancelled := same.cancelled.trans counted.cancelled
  calm := by
    rw [same.operations]
    exact counted.calm
  counted := by
    unfold submittedJobs
    rw [same.operations, same.activeJobs, same.completed, same.nextJob]
    exact counted.counted
  slots := by
    unfold submittedJobs
    rw [same.operations, same.activeJobs, same.running]
    exact counted.slots
  awaited := by
    unfold awaitedGids activeGids
    rw [same.operations, same.activeJobs]
    exact counted.awaited
  distinct := counted.distinct
  known := by
    rw [same.returned]
    exact counted.known

/-- Another list of operations that waits for the same gids. -/
theorem reordered (counted : Counted owed state live)
    (rest : next.cancelled = state.cancelled ∧
      next.returned = state.returned ∧ next.activeJobs = state.activeJobs)
    (calm : ∀ gid job, .removing gid job ∉ next.operations)
    (gids : held Operation.created? next.operations =
      held Operation.created? state.operations)
    {rate : Nat}
    (count : (submittedJobs next).card + next.completed + rate = next.nextJob)
    (slots : next.running = (submittedJobs next).card) :
    Counted rate next live where
  cancelled := rest.1.trans counted.cancelled
  calm := calm
  counted := count
  slots := slots
  awaited := by
    unfold awaitedGids activeGids
    rw [gids, rest.2.2]
    exact counted.awaited
  distinct := counted.distinct
  known := by
    rw [rest.2.1]
    exact counted.known

theorem submits (counted : Counted 1 state live) (job : Nat) :
    Counted 0 (submitJob state job) live := by
  have playing : ¬ state.cancelled = true := by
    rw [counted.cancelled]
    exact Bool.false_ne_true
  unfold submitJob
  rw [if_neg playing]
  have jobs : (submittedJobs (addOperation
      { state with running := state.running + 1 } (.adding job))).card =
        (submittedJobs state).card + 1 := by
    unfold submittedJobs
    show (held _ (state.operations ++ [Operation.adding job]) +
      held _ state.activeJobs).card = _
    rw [held_concat, Multiset.card_add, Multiset.card_add, Multiset.card_add]
    show _ + 1 + _ = _
    omega
  have count := counted.counted
  have slots := counted.slots
  apply counted.reordered
  · exact ⟨rfl, rfl, rfl⟩
  · intro gid other member
    rcases List.mem_append.mp member with earlier | last
    · exact counted.calm gid other earlier
    · cases List.mem_singleton.mp last
  · exact (held_concat _ _ _).trans (add_zero _)
  · rw [jobs]
    show _ + state.completed + 0 = state.nextJob
    omega
  · rw [jobs]
    show state.running + 1 = _
    omega

theorem drains (config : Config) (fuel : Nat)
    (counted : Counted 0 state live)
    (enough : config.jobs.length ≤ state.nextJob + fuel) :
    let drained := drainLoop config fuel state
    Counted 0 drained live ∧ drained.completed = state.completed ∧
      drained.outcome = state.outcome ∧
      ((config.concurrency : Int) ≤ drained.running ∨
        config.jobs.length ≤ drained.nextJob) := by
  induction fuel generalizing state with
  | zero => exact ⟨counted, rfl, rfl, .inr enough⟩
  | succ fuel induction =>
      unfold drainLoop
      by_cases free : state.running < config.concurrency ∧
          state.nextJob < config.jobs.length
      · rw [if_pos free]
        have advanced : Counted 1
            { state with nextJob := state.nextJob + 1 } live := by
          apply counted.reordered
          · exact ⟨rfl, rfl, rfl⟩
          · exact counted.calm
          · rfl
          · exact congrArg (· + 1) counted.counted
          · exact counted.slots
        have playing : ¬ state.cancelled = true := by
          rw [counted.cancelled]
          exact Bool.false_ne_true
        have kept : submitJob { state with nextJob := state.nextJob + 1 }
            state.nextJob = addOperation
              { state with
                nextJob := state.nextJob + 1
                running := state.running + 1 } (.adding state.nextJob) :=
          if_neg playing
        have further := induction (advanced.submits state.nextJob) (by
          rw [kept]
          show _ ≤ state.nextJob + 1 + fuel
          omega)
        rw [kept] at further ⊢
        exact further
      · rw [if_neg free]
        refine ⟨counted, rfl, rfl, ?_⟩
        by_cases full : (config.concurrency : Int) ≤ state.running
        · exact .inl full
        · apply Or.inr
          by_contra more
          exact free ⟨by omega, by omega⟩

variable {index : Nat} {operation : Operation}

theorem notRemoving (counted : Counted owed state live)
    (found : state.operations[index]? = some operation) (gid : String)
    (job : Nat) : operation ≠ .removing gid job := by
  rintro rfl
  exact counted.calm gid job (List.mem_of_getElem? found)

/-- The place of a submitted job is given back. -/
theorem releases (counted : Counted 0 state live) {job : Nat}
    (found : state.operations[index]? = some operation)
    (holds : operation.job? = some job) (plain : operation.created? = none) :
    Counted 1
      { endOperation state index with running := state.running - 1 } live := by
  have jobs := endOperation_submitted found
  have mine : own Operation.job? operation = {job} := by
    unfold own
    rw [holds]
    rfl
  have none : own Operation.created? operation = 0 := by
    unfold own
    rw [plain]
    rfl
  rw [mine] at jobs
  have cards := congrArg Multiset.card jobs
  rw [Multiset.card_add, Multiset.card_singleton] at cards
  have count := counted.counted
  have slots := counted.slots
  apply counted.reordered
  · exact ⟨rfl, rfl, rfl⟩
  · intro gid other member
    exact counted.calm gid other (List.mem_of_mem_eraseIdx member)
  · have gids := held_eraseIdx Operation.created? found
    rw [none, add_zero] at gids
    exact gids
  · show (submittedJobs (endOperation state index)).card + state.completed + 1
      = state.nextJob
    omega
  · show state.running - 1 =
      ((submittedJobs (endOperation state index)).card : Int)
    omega

/-- An operation goes on with the same job and no new gid. -/
theorem goesOn (counted : Counted 0 state live)
    (found : state.operations[index]? = some operation) (other : Operation)
    (job : other.job? = operation.job?)
    (gid : other.created? = operation.created?)
    (calm : ∀ gid job, other ≠ .removing gid job) :
    Counted 0 (setOperation state index other) live := by
  have jobs := setOperation_submitted found job
  apply counted.reordered
  · exact ⟨rfl, rfl, rfl⟩
  · intro removed item member
    rcases List.mem_or_eq_of_mem_set member with earlier | same
    · exact counted.calm removed item earlier
    · exact calm removed item same.symm
  · exact held_set_same Operation.created? found gid
  · rw [jobs]
    exact counted.counted
  · rw [jobs]
    exact counted.slots

theorem activeDistinct (counted : Counted owed state live) :
    (activeGids state).Nodup := by
  apply Multiset.coe_nodup.mp
  apply Multiset.nodup_of_le _ (Multiset.coe_nodup.mpr counted.distinct)
  exact (Multiset.le_add_left _ _).trans counted.awaited

/-- The engine has reported the end of a registered download. -/
theorem settles (counted : Counted 0 state live) {gid : String} {job : Nat}
    (active : activeJob state gid = some job) (other : Operation)
    (holds : other.job? = some job) (plain : other.created? = none)
    (calm : ∀ gid job, other ≠ .removing gid job)
    (same : SameCount (dropActive state gid) next) :
    Counted 0 (addOperation next other) (live.erase gid) := by
  obtain ⟨entry, found, rfl⟩ := activeJob_entry active
  have mine : own Operation.job? other = {entry.2} := by
    unfold own
    rw [holds]
    rfl
  have none : own Operation.created? other = 0 := by
    unfold own
    rw [plain]
    rfl
  have entries := held_filter_key activeEntry (·.1) counted.activeDistinct
    found
  have jobs : submittedJobs (addOperation next other) =
      submittedJobs state := by
    unfold submittedJobs
    show held _ (next.operations ++ [other]) + held _ next.activeJobs = _
    rw [held_concat, same.operations, same.activeJobs, mine, ← entries]
    show held _ state.operations + {entry.2} + held _ (state.activeJobs.filter
      _) = held _ state.operations + (_ + {entry.2})
    abel
  have member : gid ∈ activeGids state := by
    have key := List.find?_some found
    rw [← beq_iff_eq.mp key]
    exact List.mem_map_of_mem (List.mem_of_find?_eq_some found)
  constructor
  · exact same.cancelled.trans counted.cancelled
  · intro removed item member
    rcases List.mem_append.mp member with earlier | last
    · rw [same.operations] at earlier
      exact counted.calm removed item earlier
    · exact calm removed item (List.mem_singleton.mp last).symm
  · rw [jobs]
    show _ + next.completed + 0 = next.nextJob
    rw [same.completed, same.nextJob]
    exact counted.counted
  · rw [jobs]
    show next.running = _
    rw [same.running]
    exact counted.slots
  · have fewer : (activeGids (addOperation next other) : Multiset String) =
        (activeGids state : Multiset String).erase gid := by
      show ((next.activeJobs.map (·.1) : List String) : Multiset String) = _
      rw [same.activeJobs, Multiset.coe_erase,
        counted.activeDistinct.erase_eq_filter gid]
      show ((List.map _ (List.filter _ state.activeJobs) : List String) :
        Multiset String) = _
      unfold activeGids
      rw [List.filter_map]
      rfl
    unfold awaitedGids
    rw [fewer]
    show held _ (next.operations ++ [other]) + _ ≤ _
    rw [held_concat, none, add_zero, same.operations, ← Multiset.coe_erase,
      ← Multiset.erase_add_right_pos _ (Multiset.mem_coe.mpr member)]
    exact Multiset.erase_le_erase gid counted.awaited
  · exact counted.distinct.erase gid
  · intro other' member
    show other' ∈ next.returned
    rw [same.returned]
    exact counted.known other' (List.mem_of_mem_erase member)

/-- A gid that waits for its registration is not registered. -/
theorem fresh (counted : Counted owed state live) {gid : String} {job : Nat}
    (found : state.operations[index]? = some (.added job gid)) :
    gid ∉ activeGids state := by
  intro active
  have waiting : gid ∈ held Operation.created? state.operations := by
    apply Multiset.mem_coe.mpr
    exact List.mem_filterMap.mpr ⟨_, List.mem_of_getElem? found, rfl⟩
  have twice := Multiset.nodup_of_le counted.awaited
    (Multiset.coe_nodup.mpr counted.distinct)
  exact Multiset.disjoint_left.mp (Multiset.nodup_add.mp twice).2.2 waiting
    (Multiset.mem_coe.mpr active)

theorem setEntry_fresh {gid : String} (job : Nat)
    {entries : List (String × Nat)} (fresh : gid ∉ entries.map (·.1)) :
    setEntry gid job entries = entries ++ [(gid, job)] := by
  induction entries with
  | nil => rfl
  | cons entry entries induction =>
      obtain ⟨other, later⟩ := not_or.mp (mt List.mem_cons.mpr fresh)
      rw [setEntry, if_neg (Ne.symm other), induction later]
      rfl

/-- The answer of the engine is handled: its gid is registered. -/
theorem registers (counted : Counted 0 state live) {gid : String} {job : Nat}
    (found : state.operations[index]? = some (.added job gid)) :
    Counted 0 (endOperation (setActive state gid job) index) live := by
  have entries : setEntry gid job state.activeJobs =
      state.activeJobs ++ [(gid, job)] :=
    setEntry_fresh job (counted.fresh found)
  have jobs : submittedJobs (endOperation (setActive state gid job) index) =
      submittedJobs state := by
    rw [← endOperation_submitted found]
    unfold submittedJobs
    show held _ (state.operations.eraseIdx index) +
      held _ (setEntry gid job state.activeJobs) =
        held _ (state.operations.eraseIdx index) +
          held _ state.activeJobs + {job}
    rw [entries, held_concat, add_assoc]
    rfl
  have gids : awaitedGids (endOperation (setActive state gid job) index) =
      awaitedGids state := by
    unfold awaitedGids activeGids
    rw [← held_eraseIdx Operation.created? found]
    show held _ (state.operations.eraseIdx index) +
      (((setEntry gid job state.activeJobs).map (·.1) : List String) :
        Multiset String) = _
    rw [entries, List.map_append, ← Multiset.coe_add]
    show _ + (_ + {gid}) = held _ _ + {gid} + _
    abel
  constructor
  · exact counted.cancelled
  · intro removed item member
    exact counted.calm removed item (List.mem_of_mem_eraseIdx member)
  · rw [jobs]
    exact counted.counted
  · rw [jobs]
    exact counted.slots
  · rw [gids]
    exact counted.awaited
  · exact counted.distinct
  · exact counted.known

/-- The engine has created a download of a gid of its own. -/
theorem creates (counted : Counted 0 state live) {gid : String} {job : Nat}
    (found : state.operations[index]? = some (.adding job))
    (fresh : gid ∉ state.returned) :
    Counted 0 (setOperation
      { state with returned := state.returned ++ [gid] } index
      (.added job gid)) (live ++ [gid]) := by
  have jobs : submittedJobs (setOperation
      { state with returned := state.returned ++ [gid] } index
      (.added job gid)) = submittedJobs state :=
    setOperation_submitted found rfl
  have swapped := held_set Operation.created? found (.added job gid)
  have none : own Operation.created? (.adding job) = 0 := rfl
  rw [none, add_zero] at swapped
  constructor
  · exact counted.cancelled
  · intro removed item member
    rcases List.mem_or_eq_of_mem_set member with earlier | same
    · exact counted.calm removed item earlier
    · cases same
  · rw [jobs]
    exact counted.counted
  · rw [jobs]
    exact counted.slots
  · unfold awaitedGids
    show held _ (state.operations.set index (.added job gid)) +
      (activeGids state : Multiset String) ≤ _
    rw [swapped, ← Multiset.coe_add, add_right_comm]
    exact add_le_add_left counted.awaited _
  · apply List.Nodup.append counted.distinct (List.nodup_singleton gid)
    intro other earlier last
    rw [List.mem_singleton.mp last] at earlier
    exact fresh (counted.known gid earlier)
  · intro other member
    rcases List.mem_append.mp member with earlier | last
    · exact List.mem_append_left _ (counted.known other earlier)
    · exact List.mem_append_right _ last

end Counted

end Motrix.Download

/-!
# How a run is settled

A report of the engine that finds its gid registered is never lost, and a run
that can not go on is settled.  A report that comes earlier is lost.
-/

namespace Motrix.Download

open Motrix.Lib Motrix.Media

section Runs

variable {config : Config} {state : EngineState}

theorem onTrack_start (config : Config)
    (pending : (startRun config).outcome = .pending) :
    OnTrack config ⟨startRun config, []⟩ := by
  unfold startRun at pending ⊢
  by_cases none : config.jobs = []
  · rw [if_pos none] at pending
    cases pending
  · rw [if_neg none]
    have empty : Counted 0 {} [] := by
      constructor
      · rfl
      · nofun
      · rfl
      · rfl
      · exact le_refl 0
      · exact List.nodup_nil
      · nofun
    have same := (recordDeclared_same config.jobs {}).count
    have declared := empty.same same
    obtain ⟨counted, completed, -, drained⟩ := declared.drains config
      (config.jobs.length - (config.jobs.foldl recordDeclared {}).nextJob)
      (by omega)
    refine ⟨counted, drained, ?_⟩
    show (drain config _).completed ≠ _
    intro done
    apply none
    apply List.length_eq_zero_iff.mp
    rw [← done]
    exact completed.trans same.completed

theorem runSound {condition : EngineState → RunEvent → Prop}
    (run : EngineRun config condition state) : JobSound config state.run := by
  induction run with
  | start => exact startRun_sound config
  | step earlier allowed met induction =>
      exact applyEvent_sound induction _

theorem activeJob_of_mem {run : RunState} {gid : String}
    (member : gid ∈ activeGids run) : ∃ job, activeJob run gid = some job := by
  unfold activeJob
  cases found : run.activeJobs.find? (·.1 == gid) with
  | some entry => exact ⟨entry.2, rfl⟩
  | none =>
      obtain ⟨entry, present, rfl⟩ := List.mem_map.mp member
      have other := List.find?_eq_none.mp found entry present
      exact absurd BEq.rfl other

theorem OnTrack.same (track : OnTrack config state) {next : RunState}
    (same : SameCount state.run next) : OnTrack config ⟨next, state.live⟩ where
  counted := track.counted.same same
  drained := by
    show _ ≤ next.running ∨ _ ≤ next.nextJob
    rw [same.running, same.nextJob]
    exact track.drained
  unfinished := by
    show next.completed ≠ _
    rw [same.completed]
    exact track.unfinished

theorem OnTrack.completes (track : OnTrack config state) {index : Nat}
    {gid : String} {job size : Nat} {again : Bool}
    (found : state.run.operations[index]? =
      some (.purging gid job size again))
    (pending : (completeJob config (endOperation state.run index) gid job
      size).outcome = .pending) :
    OnTrack config ⟨completeJob config (endOperation state.run index) gid job
      size, state.live⟩ := by
  have playing : ¬ (dropSettling (endOperation state.run index) gid).cancelled =
      true := by
    show ¬ state.run.cancelled = true
    rw [track.counted.cancelled]
    exact Bool.false_ne_true
  have released := track.counted.releases found rfl rfl
  unfold completeJob at pending ⊢
  simp only [if_neg playing] at pending ⊢
  let file : FileProgress :=
    { index := job
      downloadedBytes := size
      totalBytes := size
      completed := true }
  let done : RunState := reportFile (setSeen
    { dropSettling (endOperation state.run index) gid with
      completed := state.run.completed + 1 } gid none) file
  have counted : Counted 0 { done with running := done.running - 1 }
      state.live := by
    have counts : (submittedJobs (endOperation state.run index)).card +
        state.run.completed + 1 = state.run.nextJob := released.counted
    apply released.reordered
    · exact ⟨rfl, rfl, rfl⟩
    · exact released.calm
    · rfl
    · show (submittedJobs (endOperation state.run index)).card +
        (state.run.completed + 1) + 0 = state.run.nextJob
      omega
    · exact released.slots
  obtain ⟨drained, completed, -, slots⟩ := counted.drains config
    (config.jobs.length - done.nextJob) (by
      show config.jobs.length ≤ done.nextJob + _
      omega)
  change (resolveWhenDone config (releaseSlot config done)).outcome = _
    at pending
  show OnTrack config ⟨resolveWhenDone config (releaseSlot config done), _⟩
  by_cases all : (releaseSlot config done).completed = config.jobs.length
  · unfold resolveWhenDone at pending
    rw [if_pos all] at pending
    exact absurd pending (settle_outcome (by simp))
  · unfold resolveWhenDone
    rw [if_neg all]
    exact ⟨drained, slots, all⟩

theorem OnTrack.retries (track : OnTrack config state) {index : Nat}
    {gid : String} {job : Nat} {again : Bool}
    (found : state.run.operations[index]? = some (.clearing gid job again))
    (pending : (retryJob config (endOperation state.run index) gid
      job).outcome = .pending) :
    OnTrack config ⟨retryJob config (endOperation state.run index) gid job,
      state.live⟩ := by
  have playing : ¬ (dropSettling (endOperation state.run index) gid).cancelled =
      true := by
    show ¬ state.run.cancelled = true
    rw [track.counted.cancelled]
    exact Bool.false_ne_true
  have released := track.counted.releases found rfl rfl
  unfold retryJob at pending ⊢
  simp only [if_neg playing] at pending ⊢
  split_ifs at pending ⊢ with left
  · let ready : RunState :=
      { dropSettling (endOperation state.run index) gid with
        running := state.run.running - 1
        retriesLeft := fun other =>
          if other = job then state.run.retriesLeft job - 1
          else state.run.retriesLeft other }
    have owed : Counted 1 ready state.live :=
      released.same ⟨rfl, rfl, rfl, rfl, rfl, rfl, rfl, rfl⟩
    have kept : submitJob ready job = addOperation
        { ready with running := ready.running + 1 } (.adding job) :=
      if_neg playing
    refine ⟨owed.submits job, ?_, ?_⟩
    · show _ ≤ (submitJob ready job).running ∨
        _ ≤ (submitJob ready job).nextJob
      rw [kept]
      show _ ≤ state.run.running - 1 + 1 ∨ _ ≤ state.run.nextJob
      rw [sub_add_cancel]
      exact track.drained
    · show (submitJob ready job).completed ≠ _
      rw [kept]
      exact track.unfinished
  · exact absurd pending (settle_outcome (by simp))

/-- A pending run loses nothing when the engine reports registered gids. -/
theorem onTrack_step {event : RunEvent} (track : OnTrack config state)
    (allowed : engineAllows state event) (registered : Registered state event)
    (pending : (engineStep config state event).run.outcome = .pending) :
    OnTrack config (engineStep config state event) := by
  have counted := track.counted
  have moved : ∀ next : RunState, Counted 0 next state.live →
      next.running = state.run.running → next.nextJob = state.run.nextJob →
      next.completed = state.run.completed →
      OnTrack config ⟨next, state.live⟩ := by
    intro next counted running nextJob completed
    refine ⟨counted, ?_, ?_⟩
    · show _ ≤ next.running ∨ _ ≤ next.nextJob
      rw [running, nextJob]
      exact track.drained
    · show next.completed ≠ _
      rw [completed]
      exact track.unfinished
  cases event with
  | addUriCreated index gid =>
      obtain ⟨fresh, job, found⟩ := allowed
      simp only [engineStep, applyEvent, found]
      exact ⟨counted.creates found fresh, track.drained, track.unfinished⟩
  | addUriContinued index =>
      simp only [engineStep, applyEvent]
      cases found : state.run.operations[index]? with
      | none => exact track
      | some operation =>
          cases operation with
          | added job gid =>
              have playing : ¬ state.run.cancelled = true := by
                rw [counted.cancelled]
                exact Bool.false_ne_true
              simp only [addUriContinued, if_neg playing]
              exact moved _ (counted.registers found) rfl rfl rfl
          | _ => exact track
  | addUriRejected index message =>
      simp only [engineStep, applyEvent] at pending ⊢
      cases found : state.run.operations[index]? with
      | none => exact track
      | some operation =>
          cases operation with
          | adding job =>
              have playing : ¬ (endOperation
                  { state.run with running := state.run.running - 1 }
                  index).cancelled = true := by
                show ¬ state.run.cancelled = true
                rw [counted.cancelled]
                exact Bool.false_ne_true
              simp only [found, addUriRejected, if_neg playing] at pending
              exact absurd pending (settle_outcome (by simp))
          | _ => exact track
  | complete gid =>
      have active : ∃ job, activeJob state.run gid = some job :=
        activeJob_of_mem registered
      obtain ⟨job, active⟩ := active
      simp only [engineStep, applyEvent, onComplete, active]
      split_ifs
      · exact ⟨counted.settles active (.sizing gid job _) rfl rfl (by simp)
          ⟨rfl, rfl, rfl, rfl, rfl, rfl, rfl, rfl⟩, track.drained,
          track.unfinished⟩
      · have same := (beginPurge_same (addSettling (dropActive state.run gid)
          gid) gid job none (state.run.lastSeen gid)).count
        refine ⟨counted.settles active (.purging gid job _ false) rfl rfl
          (by simp)
          ⟨same.cancelled, same.activeJobs, same.completed, same.running,
            same.nextJob, same.operations, same.outcome, same.returned⟩,
          ?_, ?_⟩
        · show _ ≤ (beginPurge _ gid job none _).1.running ∨
            _ ≤ (beginPurge _ gid job none _).1.nextJob
          rw [same.running, same.nextJob]
          exact track.drained
        · show (beginPurge _ gid job none _).1.completed ≠ _
          rw [same.completed]
          exact track.unfinished
  | error gid =>
      have active : ∃ job, activeJob state.run gid = some job :=
        activeJob_of_mem registered
      obtain ⟨job, active⟩ := active
      simp only [engineStep, applyEvent, onError, active]
      exact ⟨counted.settles active (.clearing gid job false) rfl rfl (by simp)
        ⟨rfl, rfl, rfl, rfl, rfl, rfl, rfl, rfl⟩, track.drained,
        track.unfinished⟩
  | statusRead index status =>
      simp only [engineStep, applyEvent]
      cases found : state.run.operations[index]? with
      | none => exact track
      | some operation =>
          cases operation with
          | sizing gid job seen =>
              have same := (beginPurge_same state.run gid job status
                seen).count
              have kept := found
              rw [← same.operations] at kept
              have begun := track.same same
              exact ⟨begun.counted.goesOn kept _ rfl rfl
                (by simp [beginPurge]), begun.drained,
                begun.unfinished⟩
          | _ => exact track
  | removalSettled index removed =>
      have asked : ∀ gid, Counted 0 (askRemoval state.run gid) state.live :=
        fun gid => counted.same ⟨rfl, rfl, rfl, rfl, rfl, rfl, rfl, rfl⟩
      simp only [engineStep, applyEvent] at pending ⊢
      cases found : state.run.operations[index]? with
      | none => exact track
      | some operation =>
          simp only [found] at pending
          cases operation with
          | removing gid job =>
              exact absurd rfl (counted.notRemoving found gid job)
          | purging gid job size again =>
              simp only [removalSettled] at pending ⊢
              split_ifs at pending ⊢
              · exact track.completes found pending
              · exact absurd pending (settle_outcome (by simp))
              · exact moved _ ((asked gid).goesOn found
                  (.purging gid job size true) rfl rfl (by simp)) rfl rfl rfl
          | clearing gid job again =>
              simp only [removalSettled] at pending ⊢
              split_ifs at pending ⊢
              · exact track.retries found pending
              · exact absurd pending (settle_outcome (by simp))
              · exact moved _ ((asked gid).goesOn found
                  (.clearing gid job true) rfl rfl (by simp)) rfl rfl rfl
          | _ => exact track
  | pollStarted =>
      simp only [engineStep, applyEvent, pollStarted]
      split_ifs
      · exact track
      · exact track
      · exact track.same ⟨rfl, rfl, rfl, rfl, rfl, rfl, rfl, rfl⟩
  | pollSettled statuses =>
      simp only [engineStep, applyEvent, pollSettled]
      cases state.run.polling with
      | none => exact track
      | some gids =>
          have same := SameCount.pollsAnswered statuses gids state.run
          exact track.same (same.trans
            ⟨rfl, rfl, rfl, rfl, rfl, rfl, rfl, rfl⟩)
  | cancel => exact allowed.elim
  | cancelRemovalsSettled => exact allowed.elim
  | cancelDrained => exact allowed.elim

theorem onTrack_run (run : EngineRun config Registered state)
    (pending : state.run.outcome = .pending) : OnTrack config state := by
  induction run with
  | start => exact onTrack_start config pending
  | @step state event earlier allowed registered induction =>
      apply onTrack_step _ allowed registered pending
      apply induction
      by_contra settled
      exact StaysSettled.applyEvent config state.run event settled pending

/-- When the engine reports no gid before it is registered, a run with a slot
for its jobs has been settled once nothing is left that could go on. -/
theorem idle_settled (slots : 0 < config.concurrency ∨ config.jobs = [])
    (run : EngineRun config Registered state) (idle : Idle state) :
    state.run.outcome ≠ .pending := by
  intro pending
  have track := onTrack_run run pending
  obtain ⟨live, operations, -⟩ := idle
  have awaited := track.counted.awaited
  rw [live] at awaited
  have inactive : activeGids state.run = [] := by
    have none := (Multiset.le_add_left _ _).trans awaited
    exact Multiset.coe_eq_zero _ |>.mp (Multiset.le_zero.mp none)
  have jobs : submittedJobs state.run = 0 := by
    unfold submittedJobs
    rw [operations, List.map_eq_nil_iff.mp inactive]
    rfl
  have counted := track.counted.counted
  have running := track.counted.slots
  rw [jobs, Multiset.card_zero] at counted running
  have planned := (runSound run).planned
  have unfinished := track.unfinished
  rcases slots with some | none
  · rcases track.drained with full | taken
    · omega
    · omega
  · rw [none] at planned unfinished
    have total : ([] : List Job).length = 0 := rfl
    omega

end Runs

/-- A plan of one segment. -/
def onePart : SegmentPlan :=
  { container := .mpegts
    init := none
    segments := [{ url := [], index := 0, byteRange := none, key := none }]
    isComplete := true }

def onePartConfig : Config :=
  ⟨buildJobs "tmp" onePart, 16⟩

/-- The state that a run comes to with some events. -/
def engineEvents (config : Config) (events : List RunEvent) : EngineState :=
  events.foldl (engineStep config) ⟨startRun config, []⟩

def handledReport : List RunEvent :=
  [.addUriCreated 0 "gid", .addUriContinued 0, .complete "gid",
    .statusRead 0 none, .removalSettled 0 true]

theorem handledReport_run :
    EngineRun onePartConfig Registered
      (engineEvents onePartConfig handledReport) := by
  apply EngineRun.step
  · apply EngineRun.step
    · apply EngineRun.step
      · apply EngineRun.step
        · apply EngineRun.step
          · exact .start
          · exact ⟨by decide, 0, rfl⟩
          · trivial
        · trivial
        · trivial
      · exact List.mem_singleton_self "gid"
      · exact List.mem_singleton_self "gid"
    · trivial
    · trivial
  · trivial
  · trivial

theorem idle_settled_sample :
    (engineEvents onePartConfig handledReport).run.outcome ≠ .pending :=
  idle_settled (.inl (by decide)) handledReport_run ⟨rfl, rfl, rfl⟩

/-- The engine reports the end before the answer to its creation is handled. -/
def earlyReport : List RunEvent :=
  [.addUriCreated 0 "gid", .complete "gid", .addUriContinued 0]

/-- The early report is lost, and the run waits for it for ever. -/
theorem earlyReport_hangs :
    ¬ ∀ (config : Config) (state : EngineState),
      0 < config.concurrency → EngineRun config (fun _ _ => True) state →
        Idle state → state.run.outcome ≠ .pending := by
  intro settled
  have run : EngineRun onePartConfig (fun _ _ => True)
      (engineEvents onePartConfig earlyReport) := by
    apply EngineRun.step
    · apply EngineRun.step
      · apply EngineRun.step
        · exact .start
        · exact ⟨by decide, 0, rfl⟩
        · trivial
      · exact List.mem_singleton_self "gid"
      · trivial
    · trivial
    · trivial
  exact settled onePartConfig _ (by decide) run ⟨rfl, rfl, rfl⟩ rfl

end Motrix.Download
