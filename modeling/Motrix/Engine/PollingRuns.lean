import Motrix.Engine.PollingScheduler

/-!
# Runs of the polling scheduler

Whatever happens, and in whatever order, there is at most one poll and at most
one timer, and a scheduler that is not stopped has one of the two.  What is
delivered was asked for after the last stop, restart or invalidation.
-/

namespace Motrix.Polling

open Lib

/-- The request was made, and nothing has outdated it since. -/
def Fresh {Stats Task : Type} (log : List (Entry Stats Task))
    (request : Nat) : Prop :=
  Since Entry.cuts (fun _ entry => entry = .asked request) log

/-- Only the answer of a fresh request is delivered. -/
def deliversFresh {Stats Task : Type} (before : List (Entry Stats Task))
    (entry : Entry Stats Task) : Prop :=
  ∀ request, entry.delivers = some request → Fresh before request

namespace PollingScheduler

variable {RawStats Stats Status Task : Type}
  {scheduler : PollingScheduler Stats Status Task}

/-- The requests that are still awaited, with their epochs. -/
def requests (scheduler : PollingScheduler Stats Status Task) :
    List (Nat × Nat) :=
  scheduler.polls.map (fun run => (run.id, run.epoch)) ++
    scheduler.syncs.map (fun run => (run.id, run.epoch))

/-- A request of the current epoch is fresh. -/
def Current (scheduler : PollingScheduler Stats Status Task)
    (request : Nat × Nat) : Prop :=
  request.2 ≤ scheduler.epoch ∧
    (scheduler.stopped = false → request.2 = scheduler.epoch →
      Fresh scheduler.log request.1)

structure Sound (scheduler : PollingScheduler Stats Status Task) : Prop where
  timers : scheduler.timers.map (·.handle) = scheduler.timer.toList
  polls : scheduler.polls.map (·.id) = scheduler.inFlightPoll.toList
  polling : scheduler.polling = scheduler.inFlightPoll.isSome
  drained : scheduler.stopped = false → scheduler.drainPromise = none
  subscribed : scheduler.stopped = false → scheduler.subscribed = true
  requests : ∀ request ∈ scheduler.requests, scheduler.Current request
  delivered : Guarded deliversFresh scheduler.log

/-- Polling goes on. -/
def Alive (scheduler : PollingScheduler Stats Status Task) : Prop :=
  scheduler.stopped = false →
    scheduler.polling = true ∨ scheduler.timer.isSome = true

namespace Sound

theorem initial :
    Sound ({} : PollingScheduler Stats Status Task) where
  timers := rfl
  polls := rfl
  polling := rfl
  drained wrong := by cases wrong
  subscribed wrong := by cases wrong
  requests request member := by cases member
  delivered := Guarded.nil

/-- A harmless entry of the log. -/
theorem note {entry : Entry Stats Task} (sound : Sound scheduler)
    (harmless : entry.cuts = false)
    (allowed : deliversFresh scheduler.log entry) :
    Sound (scheduler.note entry) where
  timers := sound.timers
  polls := sound.polls
  polling := sound.polling
  drained := sound.drained
  subscribed := sound.subscribed
  requests request member := by
    obtain ⟨past, fresh⟩ := sound.requests request member
    exact ⟨past, fun running same => (fresh running same).concat harmless⟩
  delivered := sound.delivered.concat allowed

/-- An entry that delivers nothing. -/
theorem cut {entry : Entry Stats Task} (sound : Sound scheduler)
    (quiet : entry.delivers = none) :
    Guarded deliversFresh (scheduler.log ++ [entry]) := by
  apply sound.delivered.concat
  intro request delivers
  rw [quiet] at delivers
  cases delivers

theorem clearTimer (sound : Sound scheduler) :
    Sound scheduler.clearTimer where
  timers := by
    have armed := sound.timers
    change (scheduler.timers.filter _).map _ = []
    cases timer : scheduler.timer with
    | none =>
        rw [timer] at armed
        rw [List.map_eq_nil_iff.mp armed]
        rfl
    | some handle =>
        rw [timer] at armed
        obtain ⟨one, only, same⟩ := List.map_eq_singleton_iff.mp armed
        rw [only]
        simp [same]
  polls := sound.polls
  polling := sound.polling
  drained := sound.drained
  subscribed := sound.subscribed
  requests := sound.requests
  delivered := sound.delivered

theorem scheduleNext (sound : Sound scheduler)
    (clear : scheduler.timer = none) :
    Sound scheduler.scheduleNext := by
  unfold PollingScheduler.scheduleNext
  split
  · exact sound
  · exact
      { sound with
        timers := by
          have armed := sound.timers
          rw [clear] at armed
          simp [List.map_eq_nil_iff.mp armed] }

theorem switchMode (sound : Sound scheduler) (newMode : Mode) :
    Sound (scheduler.switchMode newMode) := by
  unfold PollingScheduler.switchMode
  split
  · exact sound
  · have same : Sound { scheduler with mode := newMode } :=
      { sound with timers := sound.timers }
    apply (same.clearTimer.scheduleNext rfl).note rfl
    intro request delivers
    cases delivers

/-- With the request just made, the awaited requests are current. -/
theorem asked {request : Nat × Nat} (sound : Sound scheduler)
    (either : request = (scheduler.fresh, scheduler.epoch) ∨
      request ∈ scheduler.requests) :
    request.2 ≤ scheduler.epoch ∧
      (scheduler.stopped = false → request.2 = scheduler.epoch →
        Fresh (scheduler.log ++ [.asked scheduler.fresh]) request.1) := by
  rcases either with rfl | old
  · exact ⟨Nat.le_refl _, fun _ _ => Since.here rfl⟩
  · obtain ⟨past, fresh⟩ := sound.requests request old
    exact ⟨past, fun up same => (fresh up same).concat rfl⟩

theorem poll (sound : Sound scheduler) : Sound scheduler.poll := by
  unfold PollingScheduler.poll
  split
  · exact sound
  · split
    · exact { sound with timers := sound.timers }
    · next running idle =>
        have none : scheduler.inFlightPoll = none := by
          have polling := sound.polling
          cases inFlight : scheduler.inFlightPoll with
          | none => rfl
          | some id => simp [inFlight, idle] at polling
        have empty := sound.polls
        rw [none] at empty
        constructor
        · exact sound.timers
        · simp [List.map_eq_nil_iff.mp empty]
        · rfl
        · exact sound.drained
        · exact sound.subscribed
        · intro request member
          have either : request = (scheduler.fresh, scheduler.epoch) ∨
              request ∈ scheduler.requests := by
            simp only [PollingScheduler.requests, List.map_append,
              List.map_cons, List.map_nil, List.mem_append,
              List.mem_singleton] at member ⊢
            tauto
          exact sound.asked either
        · exact sound.cut rfl

theorem requestPoll (sound : Sound scheduler) :
    Sound scheduler.requestPoll := by
  unfold PollingScheduler.requestPoll
  split
  · exact sound
  · exact sound.clearTimer.poll

/-- Requests of the epochs before are outdated by a new one. -/
theorem outdates (sound : Sound scheduler) :
    ∀ request ∈ scheduler.requests,
      request.2 ≤ scheduler.epoch + 1 ∧ request.2 ≠ scheduler.epoch + 1 := by
  intro request member
  have past := (sound.requests request member).1
  omega

theorem start (sound : Sound scheduler) : Sound scheduler.start := by
  apply Sound.poll
  exact
    { timers := sound.timers
      polls := sound.polls
      polling := sound.polling
      drained := fun _ => rfl
      subscribed := fun _ => rfl
      requests := fun request member =>
        ⟨(sound.outdates request member).1, fun _ same =>
          absurd same (sound.outdates request member).2⟩
      delivered := sound.cut rfl }

theorem stopAndDrain (sound : Sound scheduler) :
    Sound scheduler.stopAndDrain := by
  unfold PollingScheduler.stopAndDrain
  dsimp only
  split
  · next drained =>
      have stopped : scheduler.stopped = true := by
        cases up : scheduler.stopped with
        | true => rfl
        | false => simp [PollingScheduler.note, sound.drained up] at drained
      exact
        { timers := sound.timers
          polls := sound.polls
          polling := sound.polling
          drained := sound.drained
          subscribed := sound.subscribed
          requests := fun request member =>
            ⟨(sound.requests request member).1, fun running => by
              cases stopped.symm.trans running⟩
          delivered := sound.cut rfl }
  · exact
      { timers := sound.clearTimer.timers
        polls := sound.polls
        polling := sound.polling
        drained := fun running => by cases running
        subscribed := fun running => by cases running
        requests := fun request member =>
          ⟨(sound.outdates request member).1, fun running => by cases running⟩
        delivered := sound.cut rfl }

theorem metadataChanged (sound : Sound scheduler) (gid : Option String) :
    Sound (scheduler.metadataChanged gid) := by
  cases gid with
  | some gid =>
      simp only [PollingScheduler.metadataChanged]
      split
      · exact sound.requestPoll
      · exact sound
  | none =>
      simp only [PollingScheduler.metadataChanged]
      split
      · exact
          { timers := sound.timers
            polls := sound.polls
            polling := sound.polling
            drained := sound.drained
            subscribed := sound.subscribed
            requests := fun request member =>
              ⟨(sound.outdates request member).1, fun _ same =>
                absurd same (sound.outdates request member).2⟩
            delivered := sound.cut rfl }
      · next unsubscribed =>
          exact
            { timers := sound.timers
              polls := sound.polls
              polling := sound.polling
              drained := sound.drained
              subscribed := sound.subscribed
              requests := fun request member =>
                ⟨(sound.requests request member).1, fun running =>
                  absurd (sound.subscribed running) unsubscribed⟩
              delivered := sound.cut rfl }

theorem timerFires (sound : Sound scheduler) (handle : Nat) :
    Sound (scheduler.timerFires handle) := by
  unfold PollingScheduler.timerFires
  split
  · next fires =>
      apply Sound.poll
      have none : scheduler.timers.filter
          (fun armed => armed.handle != handle) = [] := by
        have armed := sound.timers
        obtain ⟨one, member, same⟩ := List.any_eq_true.mp fires
        cases timer : scheduler.timer with
        | none =>
            rw [timer] at armed
            rw [List.map_eq_nil_iff.mp armed] at member
            cases member
        | some current =>
            rw [timer] at armed
            obtain ⟨only, list, -⟩ := List.map_eq_singleton_iff.mp armed
            rw [list] at member ⊢
            rw [List.mem_singleton.mp member] at same
            simpa using same
      exact
        { sound with
          timers := by
            change (scheduler.timers.filter _).map _ = []
            rw [none]
            rfl }
  · exact sound

/-! ### Polls and notifications -/

theorem setPoll (sound : Sound scheduler) (id : Nat)
    (phase : PollPhase Status Task) : Sound (scheduler.setPoll id phase) where
  timers := sound.timers
  polls := by
    change (scheduler.polls.map _).map _ = scheduler.inFlightPoll.toList
    rw [← sound.polls, List.map_map]
    apply List.map_congr_left
    intro run _
    dsimp only [Function.comp]
    split <;> rfl
  polling := sound.polling
  drained := sound.drained
  subscribed := sound.subscribed
  requests := by
    have same : (scheduler.setPoll id phase).requests = scheduler.requests := by
      simp only [PollingScheduler.requests, PollingScheduler.setPoll,
        List.map_map, List.append_cancel_right_eq]
      apply List.map_congr_left
      intro run _
      dsimp only [Function.comp]
      split <;> rfl
    rw [same]
    exact sound.requests
  delivered := sound.delivered

theorem setSync (sound : Sound scheduler) (id : Nat) (phase : SyncPhase) :
    Sound (scheduler.setSync id phase) where
  timers := sound.timers
  polls := sound.polls
  polling := sound.polling
  drained := sound.drained
  subscribed := sound.subscribed
  requests := by
    have same : (scheduler.setSync id phase).requests = scheduler.requests := by
      simp only [PollingScheduler.requests, PollingScheduler.setSync,
        List.map_map, List.append_cancel_left_eq]
      apply List.map_congr_left
      intro run _
      dsimp only [Function.comp]
      split <;> rfl
    rw [same]
    exact sound.requests
  delivered := sound.delivered

theorem dropSync (sound : Sound scheduler) (id : Nat) :
    Sound (scheduler.dropSync id) :=
  { sound with
    requests := by
      intro request member
      apply sound.requests request
      rcases List.mem_append.mp member with old | kept
      · exact List.mem_append_left _ old
      · obtain ⟨run, inside, same⟩ := List.mem_map.mp kept
        exact List.mem_append_right _
          (List.mem_map.mpr ⟨run, List.mem_of_mem_filter inside, same⟩) }

theorem syncNotifiedTask (sound : Sound scheduler) (gid : String)
    (stops : Bool) : Sound (scheduler.syncNotifiedTask gid stops) where
  timers := sound.timers
  polls := sound.polls
  polling := sound.polling
  drained := sound.drained
  subscribed := sound.subscribed
  requests := by
    intro request member
    have either : request = (scheduler.fresh, scheduler.epoch) ∨
        request ∈ scheduler.requests := by
      simp only [PollingScheduler.requests, PollingScheduler.syncNotifiedTask,
        List.map_append, List.map_cons, List.map_nil, List.mem_append,
        List.mem_singleton] at member ⊢
      tauto
    exact sound.asked either
  delivered := sound.cut rfl

end Sound

/-! ## Polling goes on -/

theorem poll_polls (running : scheduler.stopped = false) :
    scheduler.poll.polling = true := by
  by_cases polling : scheduler.polling = true
  · simp [poll, running, polling]
  · simp [poll, running, polling]

theorem Alive.poll : Alive scheduler.poll := by
  by_cases stopped : scheduler.stopped = true
  · intro running
    simp [PollingScheduler.poll, stopped] at running
  · intro _
    exact Or.inl (poll_polls (by simpa using stopped))

theorem Alive.scheduleNext : Alive scheduler.scheduleNext := by
  unfold PollingScheduler.scheduleNext
  split
  · next stopped =>
      intro running
      simp [stopped] at running
  · intro _
    exact Or.inr rfl

theorem Alive.switchMode (alive : Alive scheduler) (newMode : Mode) :
    Alive (scheduler.switchMode newMode) := by
  unfold PollingScheduler.switchMode
  split
  · exact alive
  · intro running
    apply Alive.scheduleNext
    exact running

theorem Alive.requestPoll (alive : Alive scheduler) :
    Alive scheduler.requestPoll := by
  unfold PollingScheduler.requestPoll
  split
  · exact alive
  · exact Alive.poll

/-! ## Steps -/

structure Healthy (scheduler : PollingScheduler Stats Status Task) : Prop where
  sound : Sound scheduler
  alive : Alive scheduler

namespace Healthy

theorem setPoll (healthy : Healthy scheduler) (id : Nat)
    (phase : PollPhase Status Task) : Healthy (scheduler.setPoll id phase) :=
  ⟨healthy.sound.setPoll id phase, healthy.alive⟩

theorem setSync (healthy : Healthy scheduler) (id : Nat) (phase : SyncPhase) :
    Healthy (scheduler.setSync id phase) :=
  ⟨healthy.sound.setSync id phase, healthy.alive⟩

theorem dropSync (healthy : Healthy scheduler) (id : Nat) :
    Healthy (scheduler.dropSync id) :=
  ⟨healthy.sound.dropSync id, healthy.alive⟩

theorem switchMode (healthy : Healthy scheduler) (newMode : Mode) :
    Healthy (scheduler.switchMode newMode) :=
  ⟨healthy.sound.switchMode newMode, healthy.alive.switchMode newMode⟩

theorem requestPoll (healthy : Healthy scheduler) :
    Healthy scheduler.requestPoll :=
  ⟨healthy.sound.requestPoll, healthy.alive.requestPoll⟩

/-- What a request that is not outdated gives may be delivered. -/
theorem deliver {request : Nat × Nat} {entry : Entry Stats Task}
    (healthy : Healthy scheduler) (member : request ∈ scheduler.requests)
    (current : scheduler.outdated request.2 = false)
    (harmless : entry.cuts = false)
    (delivers : entry.delivers = some request.1) :
    Healthy (scheduler.note entry) := by
  simp only [outdated, Bool.or_eq_false_iff, bne_eq_false_iff_eq] at current
  refine ⟨healthy.sound.note harmless ?_, healthy.alive⟩
  intro found same
  rw [delivers] at same
  cases same
  exact (healthy.sound.requests request member).2 current.1 current.2

theorem stopAndDrain (healthy : Healthy scheduler) :
    Healthy scheduler.stopAndDrain := by
  refine ⟨healthy.sound.stopAndDrain, ?_⟩
  unfold PollingScheduler.stopAndDrain
  dsimp only
  split
  · exact healthy.alive
  · intro running
    cases running

theorem metadataChanged (healthy : Healthy scheduler) (gid : Option String) :
    Healthy (scheduler.metadataChanged gid) := by
  refine ⟨healthy.sound.metadataChanged gid, ?_⟩
  cases gid with
  | none =>
      simp only [PollingScheduler.metadataChanged]
      split
      · exact healthy.alive
      · exact healthy.alive
  | some gid =>
      simp only [PollingScheduler.metadataChanged]
      split
      · exact healthy.alive.requestPoll
      · exact healthy.alive

theorem timerFires (healthy : Healthy scheduler) (handle : Nat) :
    Healthy (scheduler.timerFires handle) := by
  refine ⟨healthy.sound.timerFires handle, ?_⟩
  unfold PollingScheduler.timerFires
  split
  · exact Alive.poll
  · exact healthy.alive

theorem handleNotification (healthy : Healthy scheduler)
    (method gid : String) :
    Healthy (scheduler.handleNotification method gid) := by
  unfold PollingScheduler.handleNotification
  split
  · exact healthy
  · split
    · have switched := healthy.switchMode .active
      exact ⟨switched.sound.syncNotifiedTask gid false, switched.alive⟩
    · split
      · exact ⟨healthy.sound.syncNotifiedTask gid true, healthy.alive⟩
      · exact healthy

/-! ### Polls -/

theorem mem_polls {run : PollRun Status Task}
    (member : run ∈ scheduler.polls) :
    (run.id, run.epoch) ∈ scheduler.requests :=
  List.mem_append_left _ (List.mem_map_of_mem member)

theorem publish {run : PollRun Status Task} (healthy : Healthy scheduler)
    (member : run ∈ scheduler.polls)
    (current : scheduler.outdated run.epoch = false) (tasks : List Task) :
    Healthy (scheduler.publish run.id tasks) :=
  (healthy.deliver (mem_polls member) current rfl rfl).setPoll _ _

/-- A change of the mode touches no request. -/
theorem reconcileMode (healthy : Healthy scheduler)
    (numActive : Option Int) :
    Healthy (scheduler.reconcileMode numActive) ∧
      (scheduler.reconcileMode numActive).polls = scheduler.polls ∧
      ∀ epoch, (scheduler.reconcileMode numActive).outdated epoch =
        scheduler.outdated epoch := by
  cases numActive with
  | none => exact ⟨healthy, rfl, fun _ => rfl⟩
  | some number =>
      refine ⟨healthy.switchMode _, ?_⟩
      unfold PollingScheduler.reconcileMode PollingScheduler.switchMode
      dsimp only
      generalize (if 0 < number then Mode.active else Mode.idle) = newMode
      split
      · exact ⟨rfl, fun _ => rfl⟩
      · unfold PollingScheduler.scheduleNext
        split
        · exact ⟨rfl, fun _ => rfl⟩
        · exact ⟨rfl, fun _ => rfl⟩

theorem pollAnswered (host : Host RawStats Stats)
    {run : PollRun Status Task} (healthy : Healthy scheduler)
    (member : run ∈ scheduler.polls) (rawStats : RawStats)
    (statuses : List Status) :
    Healthy (scheduler.pollAnswered host run rawStats statuses) := by
  unfold PollingScheduler.pollAnswered
  split
  · exact healthy.setPoll _ _
  · next current =>
      obtain ⟨moded, polls, epochs⟩ :=
        healthy.reconcileMode (host.numActive rawStats)
      generalize scheduler.reconcileMode (host.numActive rawStats) = after at *
      have inside : run ∈ after.polls := by
        rw [polls]
        exact member
      have still : after.outdated run.epoch = false := by
        rw [epochs]
        simpa using current
      have counted : Healthy (after.note
          (.stats run.id (host.translateGlobalStat rawStats))) :=
        moded.deliver (mem_polls inside) still rfl rfl
      cases statuses with
      | nil => exact counted.publish inside still []
      | cons status rest => exact counted.setPoll _ _

theorem batchHydrated {run : PollRun Status Task}
    (healthy : Healthy scheduler) (member : run ∈ scheduler.polls)
    (rest : List Status) (tasks : List Task) (batch : List (Option Task)) :
    Healthy (scheduler.batchHydrated run rest tasks batch) := by
  unfold PollingScheduler.batchHydrated
  split
  · exact healthy.setPoll _ _
  · next current =>
      dsimp only
      split
      · exact healthy.publish member (by simpa using current) _
      · exact healthy.setPoll _ _

theorem landed {run : PollRun Status Task} (sound : Sound scheduler)
    (member : run ∈ scheduler.polls) :
    scheduler.inFlightPoll = some run.id ∧
      Sound
        { scheduler with
          polls := scheduler.polls.filter fun other => other.id != run.id
          inFlightPoll := none
          polling := false } := by
  have listed := sound.polls
  cases flying : scheduler.inFlightPoll with
  | none =>
      rw [flying] at listed
      rw [List.map_eq_nil_iff.mp listed] at member
      cases member
  | some id =>
      rw [flying] at listed
      obtain ⟨only, list, same⟩ := List.map_eq_singleton_iff.mp listed
      rw [list] at member
      rw [List.mem_singleton.mp member, same]
      refine ⟨rfl, ?_⟩
      exact
        { sound with
          polls := by simp [list, same]
          polling := rfl
          requests := by
            intro request inside
            apply sound.requests request
            rcases List.mem_append.mp inside with kept | old
            · obtain ⟨run, left, equal⟩ := List.mem_map.mp kept
              exact List.mem_append_left _ (List.mem_map.mpr
                ⟨run, List.mem_of_mem_filter left, equal⟩)
            · exact List.mem_append_right _ old }

/-- The one poll is over. -/
theorem pollSettled {run : PollRun Status Task} (healthy : Healthy scheduler)
    (member : run ∈ scheduler.polls) :
    Healthy (scheduler.pollSettled run.id) := by
  obtain ⟨flying, down⟩ := landed healthy.sound member
  unfold PollingScheduler.pollSettled
  rw [if_pos flying]
  dsimp only
  split
  · next stopped =>
      refine ⟨down, ?_⟩
      intro running
      cases stopped.symm.trans running
  · split
    · have waiting : Sound { scheduler with
          polls := scheduler.polls.filter fun other => other.id != run.id
          inFlightPoll := none
          polling := false
          pendingPoll := false } := { down with timers := down.timers }
      exact ⟨waiting.poll, Alive.poll⟩
    · split
      · next clear =>
          exact ⟨down.scheduleNext (by simpa using clear), Alive.scheduleNext⟩
      · next armed =>
          refine ⟨down, ?_⟩
          intro _
          right
          cases timer : scheduler.timer with
          | none => simp [timer] at armed
          | some handle => rfl

/-! ### Notifications -/

theorem taskHydrated {run : SyncRun} (healthy : Healthy scheduler)
    (member : run ∈ scheduler.syncs) (task : Option Task) :
    Healthy (scheduler.taskHydrated run task) := by
  unfold PollingScheduler.taskHydrated
  split
  · exact healthy.setSync _ _
  · next current =>
      cases task with
      | none => exact healthy.setSync _ _
      | some task =>
          apply setSync
          have waiting : (run.id, run.epoch) ∈ scheduler.requests :=
            List.mem_append_right _ (List.mem_map_of_mem member)
          exact healthy.deliver waiting (by simpa using current) rfl rfl

theorem continues (healthy : Healthy scheduler) (id : Nat) :
    Healthy (scheduler.dropSync id).requestPoll :=
  (healthy.dropSync id).requestPoll

theorem syncContinues (healthy : Healthy scheduler) (run : SyncRun) :
    Healthy (scheduler.syncContinues run) := by
  unfold PollingScheduler.syncContinues
  split
  · exact healthy.dropSync _
  · split
    · exact healthy.setSync _ _
    · exact healthy.continues _

theorem modeChecked (host : Host RawStats Stats)
    (healthy : Healthy scheduler) (run : SyncRun) (rawStats : RawStats) :
    Healthy (scheduler.modeChecked host run rawStats) := by
  unfold PollingScheduler.modeChecked
  split
  · exact healthy.setSync _ _
  · split
    · exact (healthy.switchMode .idle).setSync _ _
    · exact healthy.setSync _ _

theorem onPoll (healthy : Healthy scheduler) (id : Nat)
    {next : PollRun Status Task → PollingScheduler Stats Status Task}
    (keeps : ∀ run ∈ scheduler.polls, Healthy (next run)) :
    Healthy (scheduler.onPoll id next) := by
  unfold PollingScheduler.onPoll
  cases found : scheduler.polls.find? (·.id = id) with
  | none => exact healthy
  | some run => exact keeps run (List.mem_of_find?_eq_some found)

theorem onSync (healthy : Healthy scheduler) (id : Nat)
    {next : SyncRun → PollingScheduler Stats Status Task}
    (keeps : ∀ run ∈ scheduler.syncs, Healthy (next run)) :
    Healthy (scheduler.onSync id next) := by
  unfold PollingScheduler.onSync
  cases found : scheduler.syncs.find? (·.id = id) with
  | none => exact healthy
  | some run => exact keeps run (List.mem_of_find?_eq_some found)

theorem step (host : Host RawStats Stats) (healthy : Healthy scheduler)
    (event : Event RawStats Status Task) :
    Healthy (scheduler.step host event) := by
  cases event with
  | start => exact ⟨healthy.sound.start, Alive.poll⟩
  | stop => exact healthy.stopAndDrain
  | metadataChanged gid => exact healthy.metadataChanged gid
  | notification method gid => exact healthy.handleNotification method gid
  | timerFires handle => exact healthy.timerFires handle
  | multicallAnswered id rawStats statuses =>
      apply healthy.onPoll
      intro run member
      split
      · exact healthy.pollAnswered host member rawStats statuses
      · exact healthy
  | batchHydrated id batch =>
      apply healthy.onPoll
      intro run member
      split
      · exact healthy.batchHydrated member _ _ batch
      · exact healthy
  | tasksUpdated id =>
      apply healthy.onPoll
      intro run member
      split
      · exact healthy.setPoll _ _
      · exact healthy
  | pollFailed id =>
      apply healthy.onPoll
      intro run member
      exact healthy.setPoll _ _
  | pollSettled id =>
      apply healthy.onPoll
      intro run member
      split
      · exact healthy.pollSettled member
      · exact healthy
  | statusAnswered id =>
      apply healthy.onSync
      intro run member
      split
      · exact healthy.setSync _ _
      · exact healthy
  | taskHydrated id task =>
      apply healthy.onSync
      intro run member
      split
      · exact healthy.taskHydrated member task
      · exact healthy
  | taskUpdated id =>
      apply healthy.onSync
      intro run member
      split
      · exact healthy.setSync _ _
      · exact healthy
  | syncFailed id =>
      apply healthy.onSync
      intro run member
      split
      all_goals first | exact healthy.setSync _ _ | exact healthy
  | syncContinues id =>
      apply healthy.onSync
      intro run member
      split
      · exact healthy.syncContinues run
      · split
        · exact healthy.dropSync _
        · exact healthy.continues _
      · exact healthy
  | globalStatAnswered id rawStats =>
      apply healthy.onSync
      intro run member
      split
      · exact healthy.modeChecked host run rawStats
      · exact healthy
  | globalStatFailed id =>
      apply healthy.onSync
      intro run member
      split
      · exact healthy.setSync _ _
      · exact healthy

end Healthy

/-- One poll and one timer at most, and one of the two. -/
theorem Healthy.alternates (healthy : Healthy scheduler) :
    scheduler.polls.length ≤ 1 ∧ scheduler.timers.length ≤ 1 ∧
      (scheduler.stopped = false →
        scheduler.polls ≠ [] ∨ scheduler.timers ≠ []) := by
  obtain ⟨sound, alive⟩ := healthy
  have polls := congrArg List.length sound.polls
  have timers := congrArg List.length sound.timers
  rw [List.length_map, Option.length_toList] at polls timers
  refine ⟨?_, ?_, ?_⟩
  · rw [polls]
    split <;> omega
  · rw [timers]
    split <;> omega
  · intro running
    rcases alive running with polling | armed
    · left
      intro empty
      rw [empty, ← sound.polling, polling] at polls
      cases polls
    · right
      intro empty
      rw [empty, armed] at timers
      cases timers

theorem run_healthy (host : Host RawStats Stats)
    (events : List (Event RawStats Status Task)) :
    Healthy (run host events : PollingScheduler Stats Status Task) := by
  have keeps : ∀ (events : List (Event RawStats Status Task))
      (scheduler : PollingScheduler Stats Status Task), Healthy scheduler →
        Healthy (events.foldl (step host) scheduler) := by
    intro events
    induction events with
    | nil => exact fun _ healthy => healthy
    | cons event rest induction =>
        intro scheduler healthy
        exact induction _ (healthy.step host event)
  apply keeps
  refine ⟨Sound.initial, ?_⟩
  intro running
  cases running

/-- In every state that is reached: one poll and one timer at most, one of the
two while the scheduler runs, and no answer delivered to a later epoch. -/
theorem run_polls (host : Host RawStats Stats)
    (events : List (Event RawStats Status Task)) :
    let scheduler : PollingScheduler Stats Status Task := run host events
    scheduler.polls.length ≤ 1 ∧ scheduler.timers.length ≤ 1 ∧
      (scheduler.stopped = false →
        scheduler.polls ≠ [] ∨ scheduler.timers ≠ []) ∧
      Guarded deliversFresh scheduler.log := by
  have healthy : Healthy (run host events : PollingScheduler Stats Status Task) :=
    run_healthy host events
  obtain ⟨polls, timers, alive⟩ := healthy.alternates
  exact ⟨polls, timers, alive, healthy.sound.delivered⟩

end PollingScheduler

end Motrix.Polling
