import Mathlib.Data.List.Dedup
import Mathlib.Data.List.Sort
import Mathlib.Data.String.Basic
import Motrix.Lib.OrderedLanes

/-!
# The task lanes of the activity runtime

Mutations, leases and records take the lanes of their tasks.  A call is made
outside of any mutation or in the context of one that has started, and such a
context stays with the calls that a mutation leaves behind.  A lease ends when
it is released.
-/

namespace Motrix.Activity

open Motrix.Lib

variable {Task : Type} [LinearOrder Task]

/-! ## Calls -/

def uniqueTaskIds (taskIds : List Task) : List Task :=
  taskIds.dedup.insertionSort (· ≤ ·)

/-- What a call comes to: it has joined the lanes, it runs at once, it does
nothing, or it is rejected. -/
inductive CallOutcome where
  | queued (request : Nat)
  | immediate
  | skipped
  | rejected (message : String)
  deriving DecidableEq, Repr

def runtimeDisposed : String :=
  "TaskInspectorActivityRuntime is disposed"

def lockSetExtended : String :=
  "Cannot extend a nested task mutation lock set"

/-- The lanes of the tasks, with the requests that are mutations and the
outcomes of all calls. -/
structure MutationLanes (Task : Type) where
  stopped : Bool
  lanes : Lanes Task
  mutations : List Nat
  outcomes : List CallOutcome

namespace MutationLanes

def empty : MutationLanes Task where
  stopped := false
  lanes := .empty
  mutations := []
  outcomes := []

/-- The tasks in the context of a mutation. -/
def contextTasks (state : MutationLanes Task) (request : Nat) :
    Option (List Task) :=
  if request ∈ state.mutations ∧ state.lanes.isStarted request = true then
    some (state.lanes.keysOf request)
  else
    none

def getStore (state : MutationLanes Task) (context : Option Nat) :
    Option (List Task) :=
  context.bind state.contextTasks

def answer (state : MutationLanes Task) (outcome : CallOutcome) :
    MutationLanes Task :=
  { state with outcomes := state.outcomes ++ [outcome] }

/-- Joins the lane of the first task; the others follow turn by turn. -/
def enqueue (state : MutationLanes Task) (taskIds : List Task) :
    MutationLanes Task :=
  answer { state with lanes := state.lanes.join taskIds }
    (.queued state.lanes.requests.length)

def serialize (state : MutationLanes Task) (context : Option Nat)
    (taskId : Task) : MutationLanes Task :=
  match state.getStore context with
  | some active =>
      if taskId ∈ active then answer state .immediate
      else enqueue state [taskId]
  | none => enqueue state [taskId]

def runTaskMutation (state : MutationLanes Task) (context : Option Nat)
    (taskIds : List Task) : MutationLanes Task :=
  if state.stopped then
    answer state (.rejected runtimeDisposed)
  else
    let unique := uniqueTaskIds taskIds
    if unique = [] then
      answer state .immediate
    else
      match state.getStore context with
      | some active =>
          if ∀ taskId ∈ unique, taskId ∈ active then answer state .immediate
          else answer state (.rejected lockSetExtended)
      | none =>
          enqueue
            { state with
              mutations := state.mutations ++ [state.lanes.requests.length] }
            unique

/-- A lease inside of a mutation borrows its lane.  Nothing is called in the
context of another one. -/
def acquireTaskMutationLease (state : MutationLanes Task)
    (context : Option Nat) (taskId : Task) : MutationLanes Task :=
  if state.stopped then
    answer state (.rejected runtimeDisposed)
  else
    match state.getStore context with
    | some active =>
        if taskId ∈ active then answer state .immediate
        else answer state (.rejected lockSetExtended)
    | none => enqueue state (uniqueTaskIds [taskId])

def recordTransition (state : MutationLanes Task) (context : Option Nat)
    (taskId : Task) : MutationLanes Task :=
  if state.stopped then answer state .skipped
  else serialize state context taskId

def recordOccurrence (state : MutationLanes Task) (context : Option Nat)
    (taskId : Task) : MutationLanes Task :=
  if state.stopped then answer state .skipped
  else serialize state context taskId

end MutationLanes

inductive LaneEvent (Task : Type) where
  | runTaskMutation (context : Option Nat) (taskIds : List Task)
  | acquireTaskMutationLease (context : Option Nat) (taskId : Task)
  | recordTransition (context : Option Nat) (taskId : Task)
  | recordOccurrence (context : Option Nat) (taskId : Task)
  | dispose
  | turn (request : Nat)
  | finish (request : Nat)
  | release (request : Nat)

namespace MutationLanes

def applyEvent (state : MutationLanes Task) : LaneEvent Task →
    MutationLanes Task
  | .runTaskMutation context taskIds => state.runTaskMutation context taskIds
  | .acquireTaskMutationLease context taskId =>
      state.acquireTaskMutationLease context taskId
  | .recordTransition context taskId => state.recordTransition context taskId
  | .recordOccurrence context taskId => state.recordOccurrence context taskId
  | .dispose => { state with stopped := true }
  | .turn request => { state with lanes := state.lanes.turn request }
  | .finish request => { state with lanes := state.lanes.finish request }
  | .release request => { state with lanes := state.lanes.release request }

def runEvents (events : List (LaneEvent Task)) : MutationLanes Task :=
  events.foldl applyEvent empty

/-! ## The lanes stay sound -/

theorem mem_uniqueTaskIds {taskIds : List Task} {taskId : Task} :
    taskId ∈ uniqueTaskIds taskIds ↔ taskId ∈ taskIds := by
  unfold uniqueTaskIds
  rw [List.mem_insertionSort, List.mem_dedup]

theorem uniqueTaskIds_sorted (taskIds : List Task) :
    (uniqueTaskIds taskIds).Pairwise (· < ·) := by
  have sorted := List.pairwise_insertionSort (· ≤ ·) taskIds.dedup
  have distinct : (uniqueTaskIds taskIds).Nodup :=
    (List.perm_insertionSort _ _).nodup_iff.mpr taskIds.nodup_dedup
  exact sorted.imp₂ (fun _ _ le ne => lt_of_le_of_ne le ne) distinct

theorem enqueue_sound {state : MutationLanes Task} (sound : state.lanes.Sound)
    {taskIds : List Task} (sorted : taskIds.Pairwise (· < ·)) :
    (enqueue state taskIds).lanes.Sound :=
  sound.join taskIds sorted

theorem serialize_sound {state : MutationLanes Task}
    (sound : state.lanes.Sound) (context : Option Nat) (taskId : Task) :
    (serialize state context taskId).lanes.Sound := by
  have joined := enqueue_sound sound (List.pairwise_singleton (· < ·) taskId)
  unfold serialize
  split
  · split_ifs
    · exact sound
    · exact joined
  · exact joined

theorem runTaskMutation_sound {state : MutationLanes Task}
    (sound : state.lanes.Sound) (context : Option Nat)
    (taskIds : List Task) :
    (runTaskMutation state context taskIds).lanes.Sound := by
  unfold runTaskMutation
  simp only
  split_ifs
  · exact sound
  · exact sound
  · split
    · split_ifs
      · exact sound
      · exact sound
    · exact enqueue_sound sound (uniqueTaskIds_sorted taskIds)

theorem acquireTaskMutationLease_sound {state : MutationLanes Task}
    (sound : state.lanes.Sound) (context : Option Nat) (taskId : Task) :
    (acquireTaskMutationLease state context taskId).lanes.Sound := by
  unfold acquireTaskMutationLease
  split_ifs
  · exact sound
  · split
    · split_ifs
      · exact sound
      · exact sound
    · exact enqueue_sound sound (uniqueTaskIds_sorted [taskId])

theorem applyEvent_sound {state : MutationLanes Task}
    (sound : state.lanes.Sound) (event : LaneEvent Task) :
    (applyEvent state event).lanes.Sound := by
  cases event with
  | runTaskMutation context taskIds =>
      exact runTaskMutation_sound sound context taskIds
  | acquireTaskMutationLease context taskId =>
      exact acquireTaskMutationLease_sound sound context taskId
  | recordTransition context taskId =>
      simp only [applyEvent, recordTransition]
      split_ifs
      · exact sound
      · exact serialize_sound sound context taskId
  | recordOccurrence context taskId =>
      simp only [applyEvent, recordOccurrence]
      split_ifs
      · exact sound
      · exact serialize_sound sound context taskId
  | dispose => exact sound
  | turn request => exact sound.turn request
  | finish request => exact sound.finish request
  | release request => exact sound.release request

theorem runEvents_sound (events : List (LaneEvent Task)) :
    (runEvents events).lanes.Sound :=
  List.foldlRecOn (motive := fun state => state.lanes.Sound) events applyEvent
    Lanes.Sound.start fun _ sound event _ => applyEvent_sound sound event

/-! ## Nested calls -/

/-- The calls that a mutation makes: those for tasks of its own run at once,
another mutation or lease is rejected, and a record for another task joins the
lane of that task. -/
structure Nests (state : MutationLanes Task) (request : Nat)
    (active : List Task) : Prop where
  mutation : ∀ taskIds, (∀ taskId ∈ taskIds, taskId ∈ active) →
    state.runTaskMutation (some request) taskIds = state.answer .immediate
  lease : ∀ taskId ∈ active,
    state.acquireTaskMutationLease (some request) taskId =
      state.answer .immediate
  transition : ∀ taskId ∈ active,
    state.recordTransition (some request) taskId = state.answer .immediate
  occurrence : ∀ taskId ∈ active,
    state.recordOccurrence (some request) taskId = state.answer .immediate
  mutationRejected : ∀ taskIds, ¬ (∀ taskId ∈ taskIds, taskId ∈ active) →
    state.runTaskMutation (some request) taskIds =
      state.answer (.rejected lockSetExtended)
  leaseRejected : ∀ taskId ∉ active,
    state.acquireTaskMutationLease (some request) taskId =
      state.answer (.rejected lockSetExtended)
  transitionQueued : ∀ taskId ∉ active,
    state.recordTransition (some request) taskId = state.enqueue [taskId]
  occurrenceQueued : ∀ taskId ∉ active,
    state.recordOccurrence (some request) taskId = state.enqueue [taskId]

theorem nests {state : MutationLanes Task} {request : Nat}
    {active : List Task} (open' : state.stopped = false)
    (context : state.contextTasks request = some active) :
    Nests state request active := by
  have store : state.getStore (some request) = some active := context
  have running : ¬ state.stopped = true := by
    rw [open']
    nofun
  have serialized : ∀ taskId, serialize state (some request) taskId =
      if taskId ∈ active then state.answer .immediate
      else state.enqueue [taskId] := by
    intro taskId
    unfold serialize
    rw [store]
  have leased : ∀ taskId, state.acquireTaskMutationLease (some request) taskId
      = if taskId ∈ active then state.answer .immediate
        else state.answer (.rejected lockSetExtended) := by
    intro taskId
    unfold acquireTaskMutationLease
    rw [if_neg running, store]
  have mutated : ∀ taskIds, state.runTaskMutation (some request) taskIds =
      if ∀ taskId ∈ taskIds, taskId ∈ active then state.answer .immediate
      else state.answer (.rejected lockSetExtended) := by
    intro taskIds
    have same : (∀ taskId ∈ uniqueTaskIds taskIds, taskId ∈ active) ↔
        ∀ taskId ∈ taskIds, taskId ∈ active := by
      simp only [mem_uniqueTaskIds]
    unfold runTaskMutation
    rw [if_neg running]
    simp only [store, same]
    split_ifs with none within
    · rfl
    · exfalso
      apply within
      intro taskId member
      have kept := mem_uniqueTaskIds.mpr member
      rw [none] at kept
      cases kept
    · rfl
    · rfl
  constructor
  · intro taskIds within
    rw [mutated, if_pos within]
  · intro taskId member
    rw [leased, if_pos member]
  · intro taskId member
    unfold recordTransition
    rw [if_neg running, serialized, if_pos member]
  · intro taskId member
    unfold recordOccurrence
    rw [if_neg running, serialized, if_pos member]
  · intro taskIds beyond
    rw [mutated, if_neg beyond]
  · intro taskId other
    rw [leased, if_neg other]
  · intro taskId other
    unfold recordTransition
    rw [if_neg running, serialized, if_neg other]
  · intro taskId other
    unfold recordOccurrence
    rw [if_neg running, serialized, if_neg other]

/-- Whatever the order of calls and turns: operations that share a task do not
overlap and start in the order in which they joined its lane, nested calls are
dealt with at once, and there is always one among the operations that wait with
nothing before it that has not started. -/
theorem lanes_ordered (events : List (LaneEvent Task)) :
    let state := runEvents events
    (∀ (first second : Nat) (entry another : LaneRequest Task) (task : Task),
      state.lanes.requests[first]? = some entry →
      state.lanes.requests[second]? = some another →
      entry.phase = .running → another.phase = .running →
      task ∈ entry.keys → task ∈ another.keys → first = second) ∧
    (∀ task, state.lanes.startedOn task <+: state.lanes.joined task) ∧
    (∀ request active, state.stopped = false →
      state.contextTasks request = some active →
        Nests state request active) ∧
    ∀ (request : Nat) (entry : LaneRequest Task),
      state.lanes.requests[request]? = some entry → entry.started = false →
        ∃ (other : Nat) (another : LaneRequest Task) (task : Task)
          (before after : List Nat),
          state.lanes.requests[other]? = some another ∧
            another.waitsFor = some task ∧
            state.lanes.joined task = before ++ other :: after ∧
            ∀ earlier ∈ before, state.lanes.isStarted earlier = true := by
  intro state
  have sound : state.lanes.Sound := runEvents_sound events
  refine ⟨?_, ?_, ?_, ?_⟩
  · intro first second entry another task found foundOther running
      runningOther shared sharedOther
    exact sound.exclusive found foundOther running runningOther shared
      sharedOther
  · exact sound.inOrder
  · exact fun request active => nests
  · exact fun request entry => sound.noCircle

/-- A mutation of one task has started. -/
def startedMutation : List (LaneEvent String) :=
  [.runTaskMutation none ["task"], .turn 0]

/-- A record for another task extends the set and is not rejected. -/
theorem foreignRecord_queued :
    ¬ ∀ (events : List (LaneEvent String)) (request : Nat)
      (active : List String) (taskId : String),
      (runEvents events).contextTasks request = some active →
      (runEvents events).stopped = false → taskId ∉ active →
        ∃ message, ((runEvents events).recordTransition (some request)
          taskId).outcomes.getLast? = some (.rejected message) := by
  intro rejected
  obtain ⟨message, last⟩ := rejected startedMutation 0 ["task"] "other"
    (by decide) (by decide) (by decide)
  have queued : ((runEvents startedMutation).recordTransition (some 0)
      "other").outcomes.getLast? = some (.queued 1) := by decide
  rw [queued] at last
  cases last

end MutationLanes

end Motrix.Activity
