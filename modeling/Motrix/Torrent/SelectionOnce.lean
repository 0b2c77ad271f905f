import Mathlib.Data.List.Nodup
import Motrix.Lib.InFlight
import Motrix.Lib.Trace
import Motrix.Torrent.SelectionTimeout

/-!
# A magnet is taken up once

For a task and a timestamp `createTask` is called once, as long as what was
attempted is still remembered when the task waits again: an attempt that has
put the task back ends with the record in place, or throws while the task can
be looked at and is recorded anew.
-/

namespace Motrix.SelectionTimeout

open Lib
open TaskEnums (TaskStatus)

/-! ## What holds of the calls and the timer -/

namespace Call

def key (call : Call) : TaskId × Int :=
  (call.taskId, call.timestamp)

/-- At the last look before the call everything allowed it. -/
structure Allowed (call : Call) : Prop where
  running : call.stopped = false
  selection : call.settings.magnetFileSelection = true
  autoDownload : call.settings.magnetFileSelectionAutoDownload = true
  engineReady : call.engineReady = true
  task : call.task.id = call.taskId
  waits : call.task.status = .metadataReady
  timestamp : readyAt call.task = call.timestamp
  deadline : call.timestamp +
    call.settings.magnetFileSelectionTimeoutSeconds * 1000 ≤ call.now

end Call

namespace World

variable {world : World}

def Tried (world : World) (taskId : TaskId) (timestamp : Int) : Prop :=
  (taskId, timestamp) ∈ world.calls.map Call.key

def Creating (world : World) (taskId : TaskId) (timestamp : Int) : Prop :=
  ∃ job ∈ world.jobs, job.phase = .creating ∧ job.taskId = taskId ∧
    job.timestamp = timestamp

structure Careful (world : World) : Prop where
  once : (world.calls.map Call.key).Nodup
  allowed : ∀ call ∈ world.calls, call.Allowed
  armed : world.started = true → world.stopped = false →
    world.optionsOn = true →
    (∃ task ∈ world.tasks.all, task.status = .metadataReady ∧
      task.id ∉ world.running ∧
      world.refresh.attempted task.id ≠ some (readyAt task)) →
    world.refresh.timer ≠ none

/-- A task that was tried comes back only while its attempt is creating or is
still recorded; and an attempt that ends with its task waiting is recorded, or
throws and looks at a task that may be tried. -/
def Remembers (world : World) : Event → Prop
  | .tasks tasks =>
      ∀ task ∈ tasks.all, task.status = .metadataReady →
        world.Tried task.id (readyAt task) →
          world.Waits task.id (readyAt task) ∨
            world.attempted task.id = some (readyAt task) ∨
            world.Creating task.id (readyAt task)
  | .createSettles index outcome =>
      ∀ job ∈ world.jobs[index]?, job.phase = .creating →
        world.Waits job.taskId job.timestamp →
          world.attempted job.taskId = some job.timestamp ∨
            (outcome = .threw ∧
              (world.eligibleTask job.taskId job.timestamp).isSome = true)
  | _ => True

instance (taskId : TaskId) (timestamp : Int) :
    Decidable (world.Tried taskId timestamp) :=
  inferInstanceAs (Decidable (_ ∈ world.calls.map Call.key))

instance (taskId : TaskId) (timestamp : Int) :
    Decidable (world.Creating taskId timestamp) :=
  inferInstanceAs (Decidable (∃ job ∈ world.jobs, job.phase = .creating ∧
    job.taskId = taskId ∧ job.timestamp = timestamp))

instance (world : World) : (event : Event) → Decidable (world.Remembers event)
  | .tasks tasks =>
      inferInstanceAs (Decidable (∀ task ∈ tasks.all,
        task.status = .metadataReady → world.Tried task.id (readyAt task) →
          world.Waits task.id (readyAt task) ∨
            world.attempted task.id = some (readyAt task) ∨
            world.Creating task.id (readyAt task)))
  | .createSettles index outcome =>
      inferInstanceAs (Decidable (∀ job ∈ world.jobs[index]?,
        job.phase = .creating → world.Waits job.taskId job.timestamp →
          world.attempted job.taskId = some job.timestamp ∨
            (outcome = .threw ∧ (world.eligibleTask job.taskId
              job.timestamp).isSome = true)))
  | .settings _ | .clock _ | .engine _ | .watched | .start | .stopAndDrain
  | .timerFires | .begins _ | .selectionRead _ _ | .selectionFails _
  | .finally' _ => inferInstanceAs (Decidable True)

/-! ## The task that is looked at -/

theorem delay_some {task : Task} {delay : Int}
    (found : world.delay task = some delay) :
    world.stopped = false ∧ world.optionsOn = true ∧
      task.status = .metadataReady ∧ delay = readyAt task +
        world.settings.magnetFileSelectionTimeoutSeconds * 1000 -
          world.now := by
  unfold World.delay at found
  split at found
  · cases found
  · next open' =>
      simp only [Bool.or_eq_true, Bool.not_eq_true', not_or,
        Bool.not_eq_true, Bool.not_eq_false, decide_eq_true_eq,
        not_not, ne_eq] at open'
      exact ⟨open'.1.1, open'.1.2, open'.2, (Option.some.inj found).symm⟩

theorem delay_of_waiting {task : Task} (stopped : world.stopped = false)
    (on : world.optionsOn = true) (waits : task.status = .metadataReady) :
    (world.delay task).isSome = true := by
  simp [World.delay, stopped, on, waits]

theorem eligibleTask_some {taskId : TaskId} {timestamp : Int} {task : Task}
    (found : world.eligibleTask taskId timestamp = some task) :
    task ∈ world.tasks.all ∧ task.id = taskId ∧ readyAt task = timestamp ∧
      world.stopped = false ∧ world.optionsOn = true ∧
      task.status = .metadataReady ∧ timestamp +
        world.settings.magnetFileSelectionTimeoutSeconds * 1000 ≤
          world.now := by
  unfold eligibleTask at found
  split at found
  · cases found
  · next task' listed =>
      split at found
      · cases found
      · next same =>
          split at found
          · next due =>
              cases found
              obtain ⟨delay, waits, passed⟩ := (Option.any_eq_true _ _).mp due
              obtain ⟨stopped, on, status, rfl⟩ := delay_some waits
              have same' : readyAt task = timestamp := not_not.mp same
              refine ⟨List.mem_of_find?_eq_some listed, ?_, same', stopped,
                on, status, ?_⟩
              · simpa using List.find?_some listed
              · have passed' := of_decide_eq_true passed
                omega
          · cases found

/-- Of a task there is one entry. -/
theorem task_unique {task other : Task} (inside : task ∈ world.tasks.all)
    (otherInside : other ∈ world.tasks.all) (same : task.id = other.id) :
    task = other :=
  List.inj_on_of_nodup_map world.tasks.distinct inside otherInside same

/-! ## The timer -/

theorem candidate_some {attempted : TaskId → Option Int} {task : Task}
    {delay : Int} (found : world.candidate attempted task = some delay) :
    task.id ∉ world.running ∧ attempted task.id ≠ some (readyAt task) ∧
      task.status = .metadataReady := by
  unfold candidate at found
  split at found
  · cases found
  · next free =>
      simp only [List.contains_eq_mem, decide_eq_true_eq, not_or] at free
      exact ⟨free.1, free.2, (delay_some found).2.2.1⟩

theorem better_some {attempted : TaskId → Option Int}
    {best : Option (Task × Int)} {task : Task} {chosen : Task × Int}
    (found : world.better attempted best task = some chosen) :
    best = some chosen ∨
      (chosen.1 = task ∧ ∃ delay, world.candidate attempted task =
        some delay) := by
  unfold better at found
  split at found
  · exact Or.inl found
  · next delay candidate =>
      split at found
      · cases found
        exact Or.inr ⟨rfl, delay, candidate⟩
      · exact Or.inl found

theorem better_isSome {attempted : TaskId → Option Int}
    {best : Option (Task × Int)} {task : Task}
    (some' : best.isSome = true ∨
      (world.candidate attempted task).isSome = true) :
    (world.better attempted best task).isSome = true := by
  unfold better
  split
  · next none' =>
      rcases some' with best | candidate
      · exact best
      · rw [none'] at candidate
        cases candidate
  · cases best with
    | none => rfl
    | some chosen => split <;> rfl

theorem foldl_better_some {attempted : TaskId → Option Int}
    {tasks : List Task} {best : Option (Task × Int)} {chosen : Task × Int}
    (found : tasks.foldl (world.better attempted) best = some chosen) :
    best = some chosen ∨ ∃ delay,
      world.candidate attempted chosen.1 = some delay := by
  induction tasks generalizing best with
  | nil => exact Or.inl found
  | cons task rest induction =>
      rcases induction found with here | later
      · rcases better_some here with before | ⟨same, candidate⟩
        · exact Or.inl before
        · exact Or.inr (same ▸ candidate)
      · exact Or.inr later

theorem foldl_better_isSome {attempted : TaskId → Option Int}
    {tasks : List Task} {best : Option (Task × Int)}
    (some' : best.isSome = true ∨ ∃ task ∈ tasks,
      (world.candidate attempted task).isSome = true) :
    (tasks.foldl (world.better attempted) best).isSome = true := by
  induction tasks generalizing best with
  | nil =>
      rcases some' with best | ⟨task, member, -⟩
      · exact best
      · cases member
  | cons task rest induction =>
      apply induction
      rcases some' with best | ⟨other, member, candidate⟩
      · exact Or.inl (better_isSome (Or.inl best))
      · rcases List.mem_cons.mp member with rfl | later
        · exact Or.inl (better_isSome (Or.inr candidate))
        · exact Or.inr ⟨other, later, candidate⟩

theorem pruned_some {taskId : TaskId} {timestamp : Int}
    (kept : world.pruned taskId = some timestamp) :
    world.attempted taskId = some timestamp := by
  unfold pruned at kept
  split at kept
  · cases kept
  · next found =>
      split at kept
      · cases kept
        exact found
      · cases kept

theorem pruned_of_waits {taskId : TaskId} {timestamp : Int}
    (waits : world.Waits taskId timestamp)
    (attempted : world.attempted taskId = some timestamp) :
    world.pruned taskId = some timestamp := by
  simp [pruned, attempted, waits]

/-- With the options on, a refresh leaves no waiting task without a timer. -/
theorem refresh_armed (stopped : world.stopped = false)
    (on : world.optionsOn = true)
    (free : ∃ task ∈ world.tasks.all, task.status = .metadataReady ∧
      task.id ∉ world.running ∧
      world.refresh.attempted task.id ≠ some (readyAt task)) :
    world.refresh.timer ≠ none := by
  have refreshed : world.refresh = { world with
      attempted := world.pruned
      timer := (world.next world.pruned).map fun best =>
        (best.1.id, readyAt best.1) } := by
    refine if_neg ?_
    change ¬ (world.stopped || !world.optionsOn) = true
    simp [stopped, on]
  rw [refreshed] at free ⊢
  obtain ⟨task, inside, waits, idle, unattempted⟩ := free
  have candidate : (world.candidate world.pruned task).isSome = true := by
    simp only [World.candidate, List.contains_eq_mem, decide_eq_true_eq]
    rw [if_neg (not_or.mpr ⟨idle, unattempted⟩)]
    exact delay_of_waiting stopped on waits
  have chosen : (world.next world.pruned).isSome = true :=
    foldl_better_isSome (Or.inr ⟨task, inside, candidate⟩)
  intro none'
  have empty := Option.map_eq_none_iff.mp none'
  rw [empty] at chosen
  cases chosen

/-! ## The invariant -/

/-- What holds with and without a timer. -/
structure Core (world : World) : Prop where
  once : (world.calls.map Call.key).Nodup
  allowed : ∀ call ∈ world.calls, call.Allowed
  known : ∀ task ∈ world.tasks.all, task.status = .metadataReady →
    world.Tried task.id (readyAt task) →
      world.attempted task.id = some (readyAt task) ∨
        world.Creating task.id (readyAt task)
  busy : ∀ (index : Nat) (job : Job), world.jobs[index]? = some job →
    job.phase ≠ .done → job.taskId ∈ world.running
  single : ∀ (index other : Nat) (job job' : Job),
    world.jobs[index]? = some job → world.jobs[other]? = some job' →
      job.phase ≠ .done → job'.phase ≠ .done →
        job.taskId = job'.taskId → index = other
  fresh : ∀ (index : Nat) (job : Job), world.jobs[index]? = some job →
    job.phase = .queued ∨ job.phase = .reading →
      world.attempted job.taskId ≠ some job.timestamp

structure Sound (world : World) : Prop where
  core : world.Core
  timer : ∀ armed ∈ world.timer,
    armed.1 ∉ world.running ∧ world.attempted armed.1 ≠ some armed.2

theorem boot_sound (tasks : Tasks) (settings : Settings) (now : Int)
    (engineReady : Bool) : (boot tasks settings now engineReady).Sound where
  core := {
    once := List.nodup_nil
    allowed := fun call member => by cases member
    known := fun task _ _ tried => by cases tried
    busy := fun index job member => by cases member
    single := fun index other job job' member => by cases member
    fresh := fun index job member => by cases member
  }
  timer armed member := by cases member

theorem Sound.careful (sound : world.Sound) : world.Careful where
  once := sound.core.once
  allowed := sound.core.allowed
  armed _ stopped on free := refresh_armed stopped on free

namespace Core

/-- A refresh forgets only what no longer waits. -/
theorem refresh (core : world.Core) : world.refresh.Sound := by
  unfold World.refresh
  dsimp only
  split
  · refine ⟨⟨core.once, core.allowed, core.known, core.busy, core.single,
      core.fresh⟩, ?_⟩
    intro armed member
    cases member
  · refine ⟨⟨core.once, core.allowed, ?_, core.busy, core.single, ?_⟩, ?_⟩
    · intro task inside waits tried
      refine (core.known task inside waits tried).imp_left ?_
      exact pruned_of_waits ⟨task, inside, rfl, waits, rfl⟩
    · intro index job found early kept
      exact core.fresh index job found early (pruned_some kept)
    · intro armed member
      obtain ⟨chosen, next, rfl⟩ := Option.map_eq_some_iff.mp member
      rcases foldl_better_some next with none' | ⟨delay, candidate⟩
      · cases none'
      · obtain ⟨idle, unattempted, -⟩ := candidate_some candidate
        exact ⟨idle, unattempted⟩

/-- No other active job is about the task. -/
theorem alone (core : world.Core) {index other : Nat} {job job' : Job}
    (found : world.jobs[index]? = some job) (active : job.phase ≠ .done)
    (found' : world.jobs[other]? = some job') (active' : job'.phase ≠ .done)
    (apart : other ≠ index) : job'.taskId ≠ job.taskId :=
  fun same => apart (core.single other index job' job found' found active'
    active same)

/-- The only attempt that may be creating the task is the job itself. -/
theorem creating_self (core : world.Core) {index : Nat} {job : Job}
    (found : world.jobs[index]? = some job) (active : job.phase ≠ .done)
    {timestamp : Int} (creating : world.Creating job.taskId timestamp) :
    job.phase = .creating ∧ job.timestamp = timestamp := by
  obtain ⟨other, inside, phase, same, stamp⟩ := creating
  obtain ⟨place, found'⟩ := List.mem_iff_getElem?.mp inside
  have here : index = place := core.single index place job other found found'
    active (by rw [phase]; exact JobPhase.noConfusion) same.symm
  subst here
  rw [found] at found'
  cases found'
  exact ⟨phase, stamp⟩

/-- An active job goes on: what is recorded of other tasks stays. -/
theorem move (core : world.Core) {index : Nat} {job : Job}
    (found : world.jobs[index]? = some job) (active : job.phase ≠ .done)
    {phase : JobPhase} {attempted : TaskId → Option Int}
    (others : ∀ taskId, taskId ≠ job.taskId →
      attempted taskId = world.attempted taskId)
    (fresh : phase = .queued ∨ phase = .reading →
      attempted job.taskId ≠ some job.timestamp)
    (known : ∀ task ∈ world.tasks.all, task.status = .metadataReady →
      world.Tried task.id (readyAt task) → task.id = job.taskId →
        attempted task.id = some (readyAt task) ∨
          (phase = .creating ∧ job.timestamp = readyAt task)) :
    { world with
      attempted := attempted
      jobs := world.jobs.set index { job with phase := phase } }.Core where
  once := core.once
  allowed := core.allowed
  known task inside waits tried := by
    have there := (List.getElem?_eq_some_iff.mp found).1
    by_cases same : task.id = job.taskId
    · refine (known task inside waits tried same).imp_right ?_
      rintro ⟨creating, stamp⟩
      exact ⟨_, List.mem_set there _, creating, same.symm, stamp⟩
    · rcases core.known task inside waits tried with kept | creating
      · exact Or.inl ((others task.id same).trans kept)
      · obtain ⟨other, inside', phase', id, stamp⟩ := creating
        obtain ⟨place, found'⟩ := List.mem_iff_getElem?.mp inside'
        have apart : index ≠ place := by
          rintro rfl
          rw [found] at found'
          cases found'
          exact same id.symm
        refine Or.inr ⟨other, ?_, phase', id, stamp⟩
        apply List.mem_iff_getElem?.mpr
        exact ⟨place, (List.getElem?_set_ne apart).trans found'⟩
  busy other job' found' active' := by
    rcases getElem?_set_cases found' with ⟨-, rfl⟩ | ⟨-, old⟩
    · exact core.busy index job found active
    · exact core.busy other job' old active'
  single first second job₁ job₂ found₁ found₂ active₁ active₂ same := by
    rcases getElem?_set_cases found₁ with ⟨rfl, rfl⟩ | ⟨apart₁, old₁⟩
    · rcases getElem?_set_cases found₂ with ⟨rfl, -⟩ | ⟨apart₂, old₂⟩
      · rfl
      · exact core.single _ _ _ _ found old₂ active active₂ same
    · rcases getElem?_set_cases found₂ with ⟨rfl, rfl⟩ | ⟨-, old₂⟩
      · exact core.single _ _ _ _ old₁ found active₁ active same
      · exact core.single _ _ _ _ old₁ old₂ active₁ active₂ same
  fresh other job' found' early := by
    rcases getElem?_set_cases found' with ⟨-, rfl⟩ | ⟨apart, old⟩
    · exact fresh early
    · have active' : job'.phase ≠ .done := by
        rcases early with queued | reading
        · rw [queued]
          exact JobPhase.noConfusion
        · rw [reading]
          exact JobPhase.noConfusion
      have different := core.alone found active old active' apart
      change attempted job'.taskId ≠ _
      rw [others job'.taskId different]
      exact core.fresh other job' old early

/-- An attempt of a new task is queued. -/
theorem queue (core : world.Core) {taskId : TaskId} {timestamp : Int}
    (idle : taskId ∉ world.running)
    (unattempted : world.attempted taskId ≠ some timestamp) :
    { world with
      running := taskId :: world.running
      jobs := world.jobs ++ [Job.mk taskId timestamp .queued] }.Core where
  once := core.once
  allowed := core.allowed
  known task inside waits tried := by
    refine (core.known task inside waits tried).imp_right ?_
    rintro ⟨job, member, creating⟩
    exact ⟨job, List.mem_append_left _ member, creating⟩
  busy index job found active := by
    rcases getElem?_concat_cases found with ⟨-, rfl⟩ | old
    · exact List.mem_cons_self
    · exact List.mem_cons_of_mem _ (core.busy index job old active)
  single first second job₁ job₂ found₁ found₂ active₁ active₂ same := by
    rcases getElem?_concat_cases found₁ with ⟨place₁, rfl⟩ | old₁
    · rcases getElem?_concat_cases found₂ with ⟨place₂, -⟩ | old₂
      · exact place₁.trans place₂.symm
      · have there := core.busy second job₂ old₂ active₂
        have same' : taskId = job₂.taskId := same
        rw [← same'] at there
        exact absurd there idle
    · rcases getElem?_concat_cases found₂ with ⟨-, rfl⟩ | old₂
      · have there := core.busy first job₁ old₁ active₁
        have same' : job₁.taskId = taskId := same
        rw [same'] at there
        exact absurd there idle
      · exact core.single _ _ _ _ old₁ old₂ active₁ active₂ same
  fresh index job found early := by
    rcases getElem?_concat_cases found with ⟨-, rfl⟩ | old
    · exact unattempted
    · exact core.fresh index job old early

/-- The finally of an attempt makes room for the next one. -/
theorem finish (core : world.Core) {index : Nat} {job : Job}
    (found : world.jobs[index]? = some job) (settled : job.phase = .settled) :
    { world.enter index job .done with
      running := world.running.filter (· ≠ job.taskId) }.Core := by
  have active : job.phase ≠ .done := by
    rw [settled]
    exact JobPhase.noConfusion
  have moved : (world.enter index job .done).Core := by
    apply core.move found active (fun _ _ => rfl)
    · rintro (queued | reading)
      · cases queued
      · cases reading
    · intro task inside waits tried same
      refine (core.known task inside waits tried).imp_right ?_
      intro creating
      rw [same] at creating
      have phase := (core.creating_self found active creating).1
      rw [settled] at phase
      cases phase
  refine ⟨moved.once, moved.allowed, moved.known, ?_, moved.single,
    moved.fresh⟩
  intro other job' found' active'
  have there := moved.busy other job' found' active'
  refine List.mem_filter.mpr ⟨there, ?_⟩
  rcases getElem?_set_cases found' with ⟨-, rfl⟩ | ⟨apart, old⟩
  · exact absurd rfl active'
  · exact decide_eq_true (core.alone found active old active' apart)

/-- What is recorded when a task is tried. -/
theorem mark_known {taskId : TaskId} {timestamp : Int}
    (eligible : (world.eligibleTask taskId timestamp).isSome = true)
    {task : Task} (inside : task ∈ world.tasks.all) (same : task.id = taskId) :
    readyAt task = timestamp := by
  obtain ⟨chosen, found⟩ := Option.isSome_iff_exists.mp eligible
  obtain ⟨listed, id, ready, -⟩ := eligibleTask_some found
  rw [task_unique inside listed (same.trans id.symm)]
  exact ready

/-- An attempt that reads is not repeated. -/
theorem untried (core : world.Core) {index : Nat} {job : Job} {task : Task}
    (found : world.jobs[index]? = some job) (reading : job.phase = .reading)
    (eligible : world.eligibleTask job.taskId job.timestamp = some task) :
    ¬ world.Tried job.taskId job.timestamp := by
  intro tried
  have active : job.phase ≠ .done := by
    rw [reading]
    exact JobPhase.noConfusion
  obtain ⟨listed, id, ready, -, -, waits, -⟩ := eligibleTask_some eligible
  have known := core.known task listed waits (by rw [id, ready]; exact tried)
  rw [id, ready] at known
  rcases known with attempted | creating
  · exact core.fresh index job found (Or.inr reading) attempted
  · have phase := (core.creating_self found active creating).1
    rw [reading] at phase
    cases phase

theorem call (core : world.Core) {call : Call} (allowed : call.Allowed)
    (untried : ¬ world.Tried call.taskId call.timestamp)
    (recorded : world.attempted call.taskId = some call.timestamp) :
    { world with calls := world.calls ++ [call] }.Core where
  once := by
    rw [List.map_append, List.map_singleton, ← List.concat_eq_append]
    exact List.Nodup.concat untried core.once
  allowed other member := by
    rcases List.mem_append.mp member with old | new
    · exact core.allowed other old
    · exact List.mem_singleton.mp new ▸ allowed
  known task inside waits tried := by
    simp only [Tried, List.map_append, List.mem_append] at tried
    rcases tried with old | new
    · exact core.known task inside waits old
    · have key := List.mem_singleton.mp new
      simp only [Call.key, Prod.mk.injEq] at key
      apply Or.inl
      rw [key.1, key.2]
      exact recorded
  busy := core.busy
  single := core.single
  fresh := core.fresh

end Core

/-! ## Steps -/

namespace Sound

theorem speak (sound : world.Sound) (notices : List Notice)
    (settledEvents : List (TaskId × TaskId)) :
    { world with
      notices := notices
      settledEvents := settledEvents }.Sound :=
  ⟨⟨sound.core.once, sound.core.allowed, sound.core.known, sound.core.busy,
    sound.core.single, sound.core.fresh⟩, sound.timer⟩

theorem fail (sound : world.Sound) (job : Job) : (world.fail job).Sound := by
  unfold World.fail
  split
  · exact sound
  · split
    · exact sound
    · exact sound.speak _ _

theorem succeed (sound : world.Sound) (job : Job) (taskId : TaskId) :
    (world.succeed job taskId).Sound := by
  unfold World.succeed
  split
  · exact sound
  · exact sound.speak _ _

/-- The timer is about a task that no active job is about. -/
theorem timer_apart (sound : world.Sound) {index : Nat} {job : Job}
    (found : world.jobs[index]? = some job) (active : job.phase ≠ .done)
    {attempted : TaskId → Option Int}
    (others : ∀ taskId, taskId ≠ job.taskId →
      attempted taskId = world.attempted taskId) :
    ∀ armed ∈ world.timer,
      armed.1 ∉ world.running ∧ attempted armed.1 ≠ some armed.2 := by
  intro armed member
  obtain ⟨idle, unattempted⟩ := sound.timer armed member
  refine ⟨idle, ?_⟩
  rw [others armed.1]
  · exact unattempted
  · intro same
    exact idle (same ▸ sound.core.busy index job found active)

/-- An attempt goes on without a record. -/
theorem enter (sound : world.Sound) {index : Nat} {job : Job}
    (found : world.jobs[index]? = some job) (active : job.phase ≠ .done)
    {phase : JobPhase}
    (fresh : phase = .queued ∨ phase = .reading →
      world.attempted job.taskId ≠ some job.timestamp)
    (recorded : job.phase = .creating →
      world.Waits job.taskId job.timestamp →
        world.attempted job.taskId = some job.timestamp) :
    (world.enter index job phase).Sound where
  core := by
    apply sound.core.move found active (fun _ _ => rfl) fresh
    intro task inside waits tried same
    rcases sound.core.known task inside waits tried with kept | creating
    · exact Or.inl kept
    · rw [same] at creating
      obtain ⟨here, stamp⟩ := sound.core.creating_self found active creating
      apply Or.inl
      rw [same, ← stamp]
      exact recorded here ⟨task, inside, same, waits, stamp.symm⟩
  timer := sound.timer

/-- An attempt goes on with the task recorded. -/
theorem record (sound : world.Sound) {index : Nat} {job : Job}
    (found : world.jobs[index]? = some job) (active : job.phase ≠ .done)
    {phase : JobPhase} (late : phase ≠ .queued ∧ phase ≠ .reading)
    (eligible :
      (world.eligibleTask job.taskId job.timestamp).isSome = true) :
    ((world.enter index job phase).mark job.taskId job.timestamp).Sound := by
  have others : ∀ taskId, taskId ≠ job.taskId →
      (if taskId = job.taskId then some job.timestamp
        else world.attempted taskId) = world.attempted taskId :=
    fun taskId apart => if_neg apart
  refine ⟨?_, sound.timer_apart found active others⟩
  apply sound.core.move found active others
  · rintro (queued | reading)
    · exact absurd queued late.1
    · exact absurd reading late.2
  · intro task inside waits tried same
    apply Or.inl
    rw [if_pos same, Core.mark_known eligible inside same]

theorem begins (sound : world.Sound) {index : Nat} {job : Job}
    (found : world.jobs[index]? = some job) (queued : job.phase = .queued) :
    (world.begins index job).Sound := by
  have active : job.phase ≠ .done := by
    rw [queued]
    exact JobPhase.noConfusion
  have entered : ∀ phase, (world.enter index job phase).Sound := by
    intro phase
    apply sound.enter found active
    · intro _
      exact sound.core.fresh index job found (Or.inl queued)
    · intro creating
      rw [queued] at creating
      cases creating
  unfold World.begins
  split
  · exact entered .settled
  · exact entered .reading

theorem unread (sound : world.Sound) {index : Nat} {job : Job}
    (found : world.jobs[index]? = some job) (reading : job.phase = .reading) :
    (world.enter index job .settled).Sound := by
  apply sound.enter found (by rw [reading]; exact JobPhase.noConfusion)
  · rintro (queued | reading)
    · cases queued
    · cases reading
  · intro creating
    rw [reading] at creating
    cases creating

theorem selectionRead (sound : world.Sound) {index : Nat} {job : Job}
    (there : world.jobs[index]? = some job) (reading : job.phase = .reading)
    (found : Bool) : (world.selectionRead index job found).Sound := by
  have active : job.phase ≠ .done := by
    rw [reading]
    exact JobPhase.noConfusion
  unfold World.selectionRead
  split
  · exact sound.unread there reading
  · next task eligible =>
      have isSome : (world.eligibleTask job.taskId job.timestamp).isSome =
          true := by rw [eligible]; rfl
      cases found with
      | false =>
          have settled := @record world sound index job there active .settled
            ⟨JobPhase.noConfusion, JobPhase.noConfusion⟩ isSome
          exact settled.fail job
      | true =>
          have creating := @record world sound index job there active
            .creating ⟨JobPhase.noConfusion, JobPhase.noConfusion⟩ isSome
          obtain ⟨-, id, ready, stopped, on, waits, passed⟩ :=
            eligibleTask_some eligible
          simp only [World.optionsOn, Bool.and_eq_true] at on
          refine ⟨creating.core.call ?_ ?_ ?_, creating.timer⟩
          · exact ⟨stopped, on.1.1, on.1.2, on.2, id, waits, ready, passed⟩
          · exact sound.core.untried there reading eligible
          · exact if_pos rfl

/-- What was looked at before a job moved is what is looked at after. -/
theorem catches (sound : world.Sound) {index : Nat} {job : Job}
    (found : world.jobs[index]? = some job) (active : job.phase ≠ .done)
    (unrecorded :
      (world.eligibleTask job.taskId job.timestamp).isNone = true →
        (world.enter index job .settled).Sound) :
    ((world.enter index job .settled).catches job).Sound := by
  unfold World.catches
  split
  · next away => exact unrecorded away
  · next eligible =>
      apply Sound.fail
      apply sound.record found active
        ⟨JobPhase.noConfusion, JobPhase.noConfusion⟩
      rw [Option.isNone_iff_eq_none] at eligible
      exact Option.isSome_iff_ne_none.mpr eligible

theorem createSettles (sound : world.Sound) {index : Nat} {job : Job}
    (found : world.jobs[index]? = some job) (creating : job.phase = .creating)
    {outcome : CreateOutcome}
    (remembers : world.Waits job.taskId job.timestamp →
      world.attempted job.taskId = some job.timestamp ∨
        (outcome = .threw ∧
          (world.eligibleTask job.taskId job.timestamp).isSome = true)) :
    (world.createSettles index job outcome).Sound := by
  have active : job.phase ≠ .done := by
    rw [creating]
    exact JobPhase.noConfusion
  have settled : (world.Waits job.taskId job.timestamp →
      world.attempted job.taskId = some job.timestamp) →
      (world.enter index job .settled).Sound := by
    intro recorded
    apply sound.enter found active
    · rintro (queued | reading)
      · cases queued
      · cases reading
    · exact fun _ => recorded
  unfold World.createSettles
  cases outcome with
  | created taskId =>
      exact (settled fun waits => (remembers waits).resolve_right
        (fun threw => by cases threw.1)).succeed job taskId
  | refused =>
      exact (settled fun waits => (remembers waits).resolve_right
        (fun threw => by cases threw.1)).fail job
  | threw =>
      apply sound.catches found active
      intro away
      apply settled
      intro waits
      rcases remembers waits with kept | ⟨-, eligible⟩
      · exact kept
      · rw [Option.isNone_iff_eq_none] at away
        rw [away] at eligible
        cases eligible

end Sound

theorem atJob_sound {index : Nat} {phase : JobPhase} {act : Job → World}
    (sound : world.Sound)
    (acts : ∀ job, world.jobs[index]? = some job → job.phase = phase →
      (act job).Sound) : (world.atJob index phase act).Sound := by
  unfold atJob
  split
  · exact sound
  · next job found =>
      split
      · next here => exact acts job found here
      · exact sound

theorem step_sound (world : World) (event : Event) (sound : world.Sound)
    (remembers : world.Remembers event) : (world.step event).Sound := by
  cases event with
  | tasks tasks =>
      refine ⟨⟨sound.core.once, sound.core.allowed, ?_, sound.core.busy,
        sound.core.single, sound.core.fresh⟩, sound.timer⟩
      intro task inside waits tried
      rcases remembers task inside waits tried with before | known
      · obtain ⟨old, listed, id, status, ready⟩ := before
        have known := sound.core.known old listed status
        rw [id, ready] at known
        exact known tried
      · exact known
  | settings | clock | engine =>
      exact ⟨⟨sound.core.once, sound.core.allowed, sound.core.known,
        sound.core.busy, sound.core.single, sound.core.fresh⟩, sound.timer⟩
  | watched =>
      simp only [step, watched]
      split
      · exact sound.core.refresh
      · exact sound
  | start =>
      simp only [step, start]
      split
      · exact sound
      · apply Core.refresh
        exact ⟨sound.core.once, sound.core.allowed, sound.core.known,
          sound.core.busy, sound.core.single, sound.core.fresh⟩
  | stopAndDrain =>
      refine ⟨⟨sound.core.once, sound.core.allowed, sound.core.known,
        sound.core.busy, sound.core.single, sound.core.fresh⟩, ?_⟩
      intro armed member
      cases member
  | timerFires =>
      simp only [step, timerFires]
      split
      · exact sound
      · next taskId timestamp armed =>
          obtain ⟨idle, unattempted⟩ := sound.timer _ armed
          exact (sound.core.queue idle unattempted).refresh
  | begins index =>
      exact atJob_sound sound fun job found queued => sound.begins found queued
  | selectionRead index found =>
      exact atJob_sound sound fun job there reading =>
        sound.selectionRead there reading found
  | selectionFails index =>
      apply atJob_sound sound
      intro job found reading
      apply sound.catches found
      · rw [reading]
        exact JobPhase.noConfusion
      · intro _
        exact sound.unread found reading
  | createSettles index outcome =>
      apply atJob_sound sound
      intro job found creating
      exact sound.createSettles found creating (remembers job found creating)
  | finally' index =>
      apply atJob_sound sound
      intro job found settled
      exact (sound.core.finish found settled).refresh

end World

open World

/-- In every run that remembers its attempts `createTask` is called once for
a task and a timestamp, only when everything allows it, and no waiting task is
left without a timer. -/
theorem rememberedRun_careful (tasks : Tasks) (settings : Settings)
    (now : Int) (engineReady : Bool) (events : List Event)
    (remembers : Steps step Remembers
      (boot tasks settings now engineReady) events) :
    (events.foldl step (boot tasks settings now engineReady)).Careful := by
  have sound := Steps.invariant step_sound
    (boot_sound tasks settings now engineReady) remembers
  exact sound.careful

/-! ## Two failing attempts -/

def oneTask (status : TaskStatus) : Tasks where
  all := [{
    id := 1
    status := status
    instances := []
    updatedAt := 0
  }]
  distinct := List.nodup_singleton _

def oneMinute : Settings where
  magnetFileSelection := true
  magnetFileSelectionAutoDownload := true
  magnetFileSelectionTimeoutSeconds := 60

/-- An attempt up to its call, in which the task leaves the list of those
that wait and comes back. -/
def untilPutBack (job : Nat) : List Event :=
  [.timerFires, .begins job, .selectionRead job true,
    .tasks (oneTask .downloading), .watched, .tasks (oneTask .metadataReady)]

/-- The download fails with the engine up. -/
def failsOnline : List Event :=
  .start :: untilPutBack 0 ++
    [.createSettles 0 .threw, .finally' 0, .watched, .timerFires]

/-- The download fails because the engine goes down, and is asked for again
when it comes back. -/
def failsOffline : List Event :=
  .start :: untilPutBack 0 ++
    [.engine false, .createSettles 0 .threw, .finally' 0, .engine true,
      .watched] ++ untilPutBack 1

theorem rememberedRun_careful_online :
    (failsOnline.foldl step
      (boot (oneTask .metadataReady) oneMinute 60000 true)).Careful :=
  rememberedRun_careful (oneTask .metadataReady) oneMinute 60000 true
    failsOnline (by decide)

theorem failsOffline_repeats :
    ¬ ∀ (tasks : Tasks) (settings : Settings) (now : Int)
      (engineReady : Bool) (events : List Event),
      (events.foldl step
        (boot tasks settings now engineReady)).Careful := by
  intro careful
  have once := (careful (oneTask .metadataReady) oneMinute 60000 true
    failsOffline).once
  revert once
  decide

end Motrix.SelectionTimeout
