import Mathlib.Logic.Function.Basic
import Motrix.Lib.Trace

/-!
# Artifact mutation leases

A lease quiesces every writer of a task before its artifact is changed, one
after another, and resumes them in the reverse order.  An acquisition whose
quiescing fails resumes the writers it already has.  Every call is made of
steps that wait, and the steps of different calls interleave.
-/

namespace Motrix.Finalize.ArtifactLease

open Motrix.Lib

/-- Where a call to `acquire`, and the lease it returned, has come to. -/
inductive LeasePhase (Writer : Type) where
  | idle
  /-- The call threw because the task is held. -/
  | refused
  /-- The first of the waiting writers is being quiesced. -/
  | quiescing (waiting resumptions : List Writer)
  /-- The first of the remaining writers is being resumed. -/
  | rollingBack (remaining : List Writer)
  | failed
  | held (resumptions : List Writer)
  | releasing (remaining : List Writer) (failure : Bool)
  | released (failure : Bool)
  deriving DecidableEq, Repr

/-- A call with the writers that were quiesced and resumed for it so far. -/
structure LeaseCall (Writer : Type) where
  taskId : String
  phase : LeasePhase Writer
  quiesced : List Writer
  resumed : List Writer
  deriving DecidableEq, Repr

/-- The coordinator; its calls are named by numbers. -/
structure LeaseState (Writer : Type) where
  active : String → Bool
  call : Nat → LeaseCall Writer

/-- A call starts, its awaited promise settles, or its lease is released. -/
inductive LeaseEvent where
  | acquire (id : Nat) (taskId : String)
  | settle (id : Nat) (ok : Bool)
  | release (id : Nat)
  deriving DecidableEq, Repr

section Machine

variable {Writer : Type}

def idleCall : LeaseCall Writer :=
  { taskId := ""
    phase := .idle
    quiesced := []
    resumed := [] }

def initialState : LeaseState Writer :=
  { active := fun _ => false
    call := fun _ => idleCall }

namespace LeaseState

def setCall (state : LeaseState Writer) (id : Nat) (call : LeaseCall Writer) :
    LeaseState Writer :=
  { state with call := Function.update state.call id call }

def activate (state : LeaseState Writer) (taskId : String) :
    LeaseState Writer :=
  { state with active := Function.update state.active taskId true }

/-- `this.active.delete(taskId)` -/
def deactivate (state : LeaseState Writer) (taskId : String) :
    LeaseState Writer :=
  { state with active := Function.update state.active taskId false }

/-- The loop over the writers goes on or ends. -/
def quiesceNext (state : LeaseState Writer) (id : Nat)
    (call : LeaseCall Writer) (waiting resumptions : List Writer) :
    LeaseState Writer :=
  match waiting with
  | [] => state.setCall id { call with phase := .held resumptions }
  | writer :: rest =>
      state.setCall id
        { call with phase := .quiescing (writer :: rest) resumptions }

/-- `for (const resume of resumptions.reverse()) await resume()` -/
def rollBack (state : LeaseState Writer) (id : Nat) (call : LeaseCall Writer)
    (remaining : List Writer) : LeaseState Writer :=
  match remaining with
  | [] =>
      (state.setCall id { call with phase := .failed }).deactivate call.taskId
  | writer :: rest =>
      state.setCall id { call with phase := .rollingBack (writer :: rest) }

/-- The loop of the release; every failure is caught. -/
def releaseNext (state : LeaseState Writer) (id : Nat)
    (call : LeaseCall Writer) (remaining : List Writer) (failure : Bool) :
    LeaseState Writer :=
  match remaining with
  | [] =>
      (state.setCall id { call with phase := .released failure }).deactivate
        call.taskId
  | writer :: rest =>
      state.setCall id
        { call with phase := .releasing (writer :: rest) failure }

def acquire (writers : List Writer) (state : LeaseState Writer) (id : Nat)
    (taskId : String) : LeaseState Writer :=
  match (state.call id).phase with
  | .idle =>
      if state.active taskId then
        state.setCall id { idleCall with taskId, phase := .refused }
      else
        (state.activate taskId).quiesceNext id { idleCall with taskId }
          writers []
  | _ => state

def settle (state : LeaseState Writer) (id : Nat) (ok : Bool) :
    LeaseState Writer :=
  let call := state.call id
  match call.phase with
  | .quiescing (writer :: rest) resumptions =>
      if ok then
        state.quiesceNext id
          { call with quiesced := call.quiesced ++ [writer] } rest
          (resumptions ++ [writer])
      else state.rollBack id call resumptions.reverse
  | .rollingBack (writer :: rest) =>
      let resumed := { call with resumed := call.resumed ++ [writer] }
      if ok then state.rollBack id resumed rest
      -- The failure leaves the handler: nothing after it runs.
      else state.setCall id { resumed with phase := .failed }
  | .releasing (writer :: rest) failure =>
      state.releaseNext id
        { call with resumed := call.resumed ++ [writer] } rest (failure || !ok)
  | _ => state

def release (state : LeaseState Writer) (id : Nat) : LeaseState Writer :=
  let call := state.call id
  match call.phase with
  | .held resumptions =>
      state.releaseNext id call resumptions.reverse false
  | _ => state

def step (writers : List Writer) (state : LeaseState Writer) :
    LeaseEvent → LeaseState Writer
  | .acquire id taskId => state.acquire writers id taskId
  | .settle id ok => state.settle id ok
  | .release id => state.release id

end LeaseState

def runLeases (writers : List Writer) (events : List LeaseEvent) :
    LeaseState Writer :=
  events.foldl (LeaseState.step writers) initialState

end Machine

/-! ## All or nothing -/

section Properties

variable {Writer : Type} {writers : List Writer}

/-- The call holds its task or is on its way to it or away from it. -/
def LeasePhase.InProgress : LeasePhase Writer → Prop
  | .quiescing _ _ => True
  | .rollingBack _ => True
  | .held _ => True
  | .releasing _ _ => True
  | _ => False

/-- A task has one holder, and a lease every writer.  A failed acquisition and
a release have resumed every writer that was quiesced, last first, and only a
call in progress keeps a task from being acquired. -/
structure AllOrNothing (writers : List Writer) (state : LeaseState Writer) :
    Prop where
  holder : ∀ left right, (state.call left).phase.InProgress →
    (state.call right).phase.InProgress →
      (state.call left).taskId = (state.call right).taskId → left = right
  held : ∀ id resumptions, (state.call id).phase = .held resumptions →
    (state.call id).quiesced = writers ∧ (state.call id).resumed = []
  failed : ∀ id, (state.call id).phase = .failed →
    (state.call id).resumed = (state.call id).quiesced.reverse
  released : ∀ id failure, (state.call id).phase = .released failure →
    (state.call id).resumed = (state.call id).quiesced.reverse
  acquirable : ∀ taskId, state.active taskId = true →
    ∃ id, (state.call id).taskId = taskId ∧
      (state.call id).phase.InProgress

/-- The event is no resume that fails while an acquisition is rolled back. -/
def RollsBack (state : LeaseState Writer) : LeaseEvent → Prop
  | .settle id ok =>
      ok = true ∨ ∀ remaining,
        (state.call id).phase ≠ .rollingBack remaining
  | _ => True

/-- What a call has quiesced and resumed in its phase. -/
def LeaseCall.Consistent (writers : List Writer) (call : LeaseCall Writer) :
    Prop :=
  match call.phase with
  | .idle | .refused => True
  | .quiescing waiting resumptions =>
      waiting ≠ [] ∧ call.quiesced = resumptions ∧ call.resumed = [] ∧
        call.quiesced ++ waiting = writers
  | .rollingBack remaining =>
      remaining ≠ [] ∧ call.quiesced.reverse = call.resumed ++ remaining
  | .failed => call.resumed = call.quiesced.reverse
  | .held resumptions =>
      call.quiesced = resumptions ∧ call.resumed = [] ∧
        call.quiesced = writers
  | .releasing remaining _ =>
      remaining ≠ [] ∧ call.quiesced.reverse = call.resumed ++ remaining
  | .released _ => call.resumed = call.quiesced.reverse

/-- A task is active for exactly one call in progress. -/
structure Coordinated (writers : List Writer) (state : LeaseState Writer) :
    Prop where
  calls : ∀ id, (state.call id).Consistent writers
  active : ∀ id, (state.call id).phase.InProgress →
    state.active (state.call id).taskId = true
  holder : ∀ left right, (state.call left).phase.InProgress →
    (state.call right).phase.InProgress →
      (state.call left).taskId = (state.call right).taskId → left = right
  acquirable : ∀ taskId, state.active taskId = true →
    ∃ id, (state.call id).taskId = taskId ∧
      (state.call id).phase.InProgress

theorem Coordinated.allOrNothing {state : LeaseState Writer}
    (coordinated : Coordinated writers state) : AllOrNothing writers state where
  holder := coordinated.holder
  acquirable := coordinated.acquirable
  held id resumptions phase := by
    have consistent := coordinated.calls id
    unfold LeaseCall.Consistent at consistent
    rw [phase] at consistent
    exact ⟨consistent.2.2, consistent.2.1⟩
  failed id phase := by
    have consistent := coordinated.calls id
    unfold LeaseCall.Consistent at consistent
    rw [phase] at consistent
    exact consistent
  released id failure phase := by
    have consistent := coordinated.calls id
    unfold LeaseCall.Consistent at consistent
    rw [phase] at consistent
    exact consistent

/-! ## Changing one call -/

/-- A call in progress moves on without leaving its task. -/
theorem Coordinated.progress {state : LeaseState Writer} {id : Nat}
    {call : LeaseCall Writer} (coordinated : Coordinated writers state)
    (before : (state.call id).phase.InProgress)
    (task : call.taskId = (state.call id).taskId)
    (after : call.phase.InProgress) (consistent : call.Consistent writers) :
    Coordinated writers (state.setCall id call) := by
  have tasks (other : Nat) : ((state.setCall id call).call other).taskId =
      (state.call other).taskId := by
    by_cases same : other = id
    · subst other
      simp [LeaseState.setCall, task]
    · simp [LeaseState.setCall, same]
  have phases (other : Nat) :
      ((state.setCall id call).call other).phase.InProgress ↔
        (state.call other).phase.InProgress := by
    by_cases same : other = id
    · subst other
      simp [LeaseState.setCall, before, after]
    · simp [LeaseState.setCall, same]
  constructor
  · intro other
    by_cases same : other = id
    · subst other
      simpa [LeaseState.setCall] using consistent
    · simpa [LeaseState.setCall, same] using coordinated.calls other
  · intro other inProgress
    rw [tasks]
    exact coordinated.active other ((phases other).mp inProgress)
  · intro left right leftProgress rightProgress shared
    rw [tasks, tasks] at shared
    exact coordinated.holder left right ((phases left).mp leftProgress)
      ((phases right).mp rightProgress) shared
  · intro taskId held
    obtain ⟨other, named, inProgress⟩ := coordinated.acquirable taskId held
    exact ⟨other, (tasks other).trans named, (phases other).mpr inProgress⟩

theorem LeaseState.setCall_call (state : LeaseState Writer) (id : Nat)
    (call : LeaseCall Writer) : (state.setCall id call).call id = call := by
  simp [LeaseState.setCall]

theorem LeaseState.setCall_call_of_ne {state : LeaseState Writer}
    {id other : Nat} {call : LeaseCall Writer} (apart : other ≠ id) :
    (state.setCall id call).call other = state.call other := by
  simp [LeaseState.setCall, apart]

/-- Next to a call out of progress, the calls in progress are the others. -/
theorem LeaseState.setCall_inProgress {state : LeaseState Writer}
    {id other : Nat} {call : LeaseCall Writer}
    (after : ¬ call.phase.InProgress)
    (inProgress : ((state.setCall id call).call other).phase.InProgress) :
    other ≠ id ∧ (state.call other).phase.InProgress := by
  by_cases same : other = id
  · rw [same, LeaseState.setCall_call] at inProgress
    exact absurd inProgress after
  · rw [LeaseState.setCall_call_of_ne same] at inProgress
    exact ⟨same, inProgress⟩

theorem Coordinated.calls_setCall {state : LeaseState Writer} {id : Nat}
    {call : LeaseCall Writer} (coordinated : Coordinated writers state)
    (consistent : call.Consistent writers) (other : Nat) :
    ((state.setCall id call).call other).Consistent writers := by
  by_cases same : other = id
  · rw [same, LeaseState.setCall_call]
    exact consistent
  · rw [LeaseState.setCall_call_of_ne same]
    exact coordinated.calls other

theorem Coordinated.holder_setCall {state : LeaseState Writer} {id : Nat}
    {call : LeaseCall Writer} (coordinated : Coordinated writers state)
    (after : ¬ call.phase.InProgress) (left right : Nat)
    (leftProgress : ((state.setCall id call).call left).phase.InProgress)
    (rightProgress : ((state.setCall id call).call right).phase.InProgress)
    (shared : ((state.setCall id call).call left).taskId =
      ((state.setCall id call).call right).taskId) : left = right := by
  obtain ⟨leftApart, leftProgress⟩ :=
    LeaseState.setCall_inProgress after leftProgress
  obtain ⟨rightApart, rightProgress⟩ :=
    LeaseState.setCall_inProgress after rightProgress
  rw [LeaseState.setCall_call_of_ne leftApart,
    LeaseState.setCall_call_of_ne rightApart] at shared
  exact coordinated.holder left right leftProgress rightProgress shared

/-- A call in progress ends and frees its task. -/
theorem Coordinated.finish {state : LeaseState Writer} {id : Nat}
    {call : LeaseCall Writer} (coordinated : Coordinated writers state)
    (before : (state.call id).phase.InProgress)
    (task : call.taskId = (state.call id).taskId)
    (after : ¬ call.phase.InProgress) (consistent : call.Consistent writers) :
    Coordinated writers ((state.setCall id call).deactivate call.taskId) := by
  constructor
  · exact coordinated.calls_setCall consistent
  · intro other inProgress
    obtain ⟨apart, inProgress⟩ :=
      LeaseState.setCall_inProgress after inProgress
    show (state.deactivate call.taskId).active
      ((state.setCall id call).call other).taskId = true
    rw [LeaseState.setCall_call_of_ne apart]
    have elsewhere : (state.call other).taskId ≠ call.taskId := by
      intro shared
      exact apart (coordinated.holder other id inProgress before
        (shared.trans task))
    have active := coordinated.active other inProgress
    simpa [LeaseState.setCall, LeaseState.deactivate, elsewhere] using active
  · exact coordinated.holder_setCall after
  · intro taskId held
    have elsewhere : taskId ≠ call.taskId := by
      intro same
      subst same
      simp [LeaseState.deactivate] at held
    have active : state.active taskId = true := by
      simpa [LeaseState.setCall, LeaseState.deactivate, elsewhere] using held
    obtain ⟨other, named, inProgress⟩ := coordinated.acquirable taskId active
    have apart : other ≠ id := by
      intro same
      subst same
      exact elsewhere (named.symm.trans task.symm)
    have kept : (state.setCall id call).call other = state.call other :=
      LeaseState.setCall_call_of_ne apart
    exact ⟨other, (congrArg LeaseCall.taskId kept).trans named,
      kept.symm ▸ inProgress⟩

/-- A call that holds nothing changes into one that holds nothing. -/
theorem Coordinated.refuse {state : LeaseState Writer} {id : Nat}
    {call : LeaseCall Writer} (coordinated : Coordinated writers state)
    (before : ¬ (state.call id).phase.InProgress)
    (after : ¬ call.phase.InProgress) (consistent : call.Consistent writers) :
    Coordinated writers (state.setCall id call) := by
  constructor
  · exact coordinated.calls_setCall consistent
  · intro other inProgress
    obtain ⟨apart, inProgress⟩ :=
      LeaseState.setCall_inProgress after inProgress
    rw [LeaseState.setCall_call_of_ne apart]
    exact coordinated.active other inProgress
  · exact coordinated.holder_setCall after
  · intro taskId held
    obtain ⟨other, named, inProgress⟩ := coordinated.acquirable taskId held
    have apart : other ≠ id := by
      intro same
      subst same
      exact before inProgress
    have kept : (state.setCall id call).call other = state.call other :=
      LeaseState.setCall_call_of_ne apart
    exact ⟨other, (congrArg LeaseCall.taskId kept).trans named,
      kept.symm ▸ inProgress⟩

/-- A call takes a task that no call in progress has. -/
theorem Coordinated.start {state : LeaseState Writer} {id : Nat}
    (coordinated : Coordinated writers state) (call : LeaseCall Writer)
    (before : ¬ (state.call id).phase.InProgress)
    (free : state.active call.taskId = false) (after : call.phase.InProgress)
    (consistent : call.Consistent writers) :
    Coordinated writers ((state.activate call.taskId).setCall id call) := by
  have kept {other : Nat} (apart : other ≠ id) :
      ((state.activate call.taskId).setCall id call).call other =
        state.call other := LeaseState.setCall_call_of_ne apart
  have same := (state.activate call.taskId).setCall_call id call
  have elsewhere {other : Nat}
      (inProgress : (state.call other).phase.InProgress) :
      (state.call other).taskId ≠ call.taskId := by
    intro shared
    have active := coordinated.active other inProgress
    rw [shared, free] at active
    cases active
  constructor
  · intro other
    by_cases here : other = id
    · rw [here, same]
      exact consistent
    · rw [kept here]
      exact coordinated.calls other
  · intro other inProgress
    by_cases here : other = id
    · rw [here, same]
      simp [LeaseState.setCall, LeaseState.activate]
    · rw [kept here] at inProgress ⊢
      simpa [LeaseState.setCall, LeaseState.activate, elsewhere inProgress]
        using coordinated.active other inProgress
  · intro left right leftProgress rightProgress shared
    by_cases leftHere : left = id
    · by_cases rightHere : right = id
      · exact leftHere.trans rightHere.symm
      · rw [leftHere, same, kept rightHere] at shared
        rw [kept rightHere] at rightProgress
        exact absurd shared.symm (elsewhere rightProgress)
    · rw [kept leftHere] at leftProgress
      by_cases rightHere : right = id
      · rw [rightHere, same, kept leftHere] at shared
        exact absurd shared (elsewhere leftProgress)
      · rw [kept rightHere] at rightProgress
        rw [kept leftHere, kept rightHere] at shared
        exact coordinated.holder left right leftProgress rightProgress shared
  · intro taskId held
    by_cases named : taskId = call.taskId
    · exact ⟨id, by rw [same, named], by rw [same]; exact after⟩
    · have active : state.active taskId = true := by
        simpa [LeaseState.setCall, LeaseState.activate, named] using held
      obtain ⟨other, owned, inProgress⟩ := coordinated.acquirable taskId active
      have apart : other ≠ id := by
        intro here
        subst here
        exact before inProgress
      exact ⟨other, by rw [kept apart]; exact owned,
        by rw [kept apart]; exact inProgress⟩

/-! ## Steps -/

theorem Coordinated.quiesceNext {state : LeaseState Writer} {id : Nat}
    {call : LeaseCall Writer} {waiting resumptions : List Writer}
    (coordinated : Coordinated writers state)
    (before : (state.call id).phase.InProgress)
    (task : call.taskId = (state.call id).taskId)
    (quiesced : call.quiesced = resumptions) (resumed : call.resumed = [])
    (split : call.quiesced ++ waiting = writers) :
    Coordinated writers (state.quiesceNext id call waiting resumptions) := by
  cases waiting with
  | nil =>
      rw [List.append_nil] at split
      exact coordinated.progress before task trivial
        ⟨quiesced, resumed, split⟩
  | cons writer rest =>
      exact coordinated.progress before task trivial
        ⟨List.cons_ne_nil writer rest, quiesced, resumed, split⟩

theorem Coordinated.rollBack {state : LeaseState Writer} {id : Nat}
    {call : LeaseCall Writer} {remaining : List Writer}
    (coordinated : Coordinated writers state)
    (before : (state.call id).phase.InProgress)
    (task : call.taskId = (state.call id).taskId)
    (split : call.quiesced.reverse = call.resumed ++ remaining) :
    Coordinated writers (state.rollBack id call remaining) := by
  cases remaining with
  | nil =>
      rw [List.append_nil] at split
      exact coordinated.finish before task (fun inProgress => inProgress)
        split.symm
  | cons writer rest =>
      exact coordinated.progress before task trivial
        ⟨List.cons_ne_nil writer rest, split⟩

theorem Coordinated.releaseNext {state : LeaseState Writer} {id : Nat}
    {call : LeaseCall Writer} {remaining : List Writer} {failure : Bool}
    (coordinated : Coordinated writers state)
    (before : (state.call id).phase.InProgress)
    (task : call.taskId = (state.call id).taskId)
    (split : call.quiesced.reverse = call.resumed ++ remaining) :
    Coordinated writers (state.releaseNext id call remaining failure) := by
  cases remaining with
  | nil =>
      rw [List.append_nil] at split
      exact coordinated.finish before task (fun inProgress => inProgress)
        split.symm
  | cons writer rest =>
      exact coordinated.progress before task trivial
        ⟨List.cons_ne_nil writer rest, split⟩

theorem Coordinated.acquire {state : LeaseState Writer}
    (coordinated : Coordinated writers state) (id : Nat)
    (taskId : String) : Coordinated writers (state.acquire writers id taskId) := by
  unfold LeaseState.acquire
  split
  · rename_i idle
    have before : ¬ (state.call id).phase.InProgress := by
      rw [idle]
      exact fun inProgress => inProgress
    by_cases held : state.active taskId = true
    · rw [if_pos held]
      exact coordinated.refuse before (fun inProgress => inProgress) trivial
    · rw [if_neg held]
      have free : state.active taskId = false := by simpa using held
      cases writers with
      | nil =>
          exact coordinated.start
            { idleCall with taskId, phase := .held [] } before free trivial
            ⟨rfl, rfl, rfl⟩
      | cons writer rest =>
          exact coordinated.start
            { idleCall with
              taskId
              phase := .quiescing (writer :: rest) [] }
            before free trivial ⟨List.cons_ne_nil writer rest, rfl, rfl, rfl⟩
  · exact coordinated

/-- A step that rolls back as it should keeps every task accounted for. -/
theorem Coordinated.settle {state : LeaseState Writer}
    (coordinated : Coordinated writers state) (id : Nat) (ok : Bool)
    (rolls : RollsBack state (.settle id ok)) :
    Coordinated writers (state.settle id ok) := by
  have consistent := coordinated.calls id
  unfold LeaseCall.Consistent at consistent
  unfold LeaseState.settle
  dsimp only
  split
  · rename_i writer rest resumptions phase
    rw [phase] at consistent
    obtain ⟨-, quiesced, resumed, split⟩ := consistent
    have before : (state.call id).phase.InProgress := by
      rw [phase]
      trivial
    cases ok with
    | true =>
        refine coordinated.quiesceNext before rfl
          (congrArg (· ++ [writer]) quiesced) resumed ?_
        rw [List.append_assoc]
        exact split
    | false =>
        refine coordinated.rollBack before rfl ?_
        rw [quiesced, resumed]
        rfl
  · rename_i writer rest phase
    rw [phase] at consistent
    have before : (state.call id).phase.InProgress := by
      rw [phase]
      trivial
    rcases rolls with succeeded | elsewhere
    · rw [succeeded, if_pos rfl]
      refine coordinated.rollBack before rfl ?_
      rw [List.append_assoc]
      exact consistent.2
    · exact absurd phase (elsewhere (writer :: rest))
  · rename_i writer rest failure phase
    rw [phase] at consistent
    have before : (state.call id).phase.InProgress := by
      rw [phase]
      trivial
    refine coordinated.releaseNext before rfl ?_
    rw [List.append_assoc]
    exact consistent.2
  · exact coordinated

theorem Coordinated.release {state : LeaseState Writer}
    (coordinated : Coordinated writers state) (id : Nat) :
    Coordinated writers (state.release id) := by
  have consistent := coordinated.calls id
  unfold LeaseCall.Consistent at consistent
  unfold LeaseState.release
  dsimp only
  split
  · rename_i resumptions phase
    rw [phase] at consistent
    obtain ⟨quiesced, resumed, -⟩ := consistent
    refine coordinated.releaseNext (by rw [phase]; trivial) rfl ?_
    rw [quiesced, resumed]
    rfl
  · exact coordinated

theorem Coordinated.step {state : LeaseState Writer}
    (coordinated : Coordinated writers state)
    (event : LeaseEvent) (rolls : RollsBack state event) :
    Coordinated writers (state.step writers event) := by
  cases event with
  | acquire id taskId => exact coordinated.acquire id taskId
  | settle id ok => exact coordinated.settle id ok rolls
  | release id => exact coordinated.release id

theorem coordinated_initial :
    Coordinated writers (initialState : LeaseState Writer) where
  calls _ := trivial
  active _ inProgress := nomatch inProgress
  holder _ _ inProgress := nomatch inProgress
  acquirable _ held := nomatch held

/-- A resume that fails in a rollback leaves its task held by no call. -/
theorem Coordinated.broken {state : LeaseState Writer}
    (coordinated : Coordinated writers state)
    (event : LeaseEvent) (breaks : ¬ RollsBack state event) :
    ¬ AllOrNothing writers (state.step writers event) := by
  cases event with
  | acquire id taskId => exact absurd trivial breaks
  | release id => exact absurd trivial breaks
  | settle id ok =>
      unfold RollsBack at breaks
      rw [not_or] at breaks
      obtain ⟨failed, rolling⟩ := breaks
      have failed : ok = false := by simpa using failed
      obtain ⟨remaining, phase⟩ := not_forall_not.mp rolling
      have consistent := coordinated.calls id
      unfold LeaseCall.Consistent at consistent
      rw [phase] at consistent
      have inProgress : (state.call id).phase.InProgress := by
        rw [phase]
        trivial
      cases remaining with
      | nil => exact absurd rfl consistent.1
      | cons writer rest =>
          have stepped : state.step writers (.settle id ok) =
              state.setCall id
                { state.call id with
                  resumed := (state.call id).resumed ++ [writer]
                  phase := .failed } := by
            show state.settle id ok = _
            unfold LeaseState.settle
            dsimp only
            rw [phase, failed]
            rfl
          intro holds
          rw [stepped] at holds
          obtain ⟨other, named, holding⟩ :=
            holds.acquirable (state.call id).taskId
              (coordinated.active id inProgress)
          by_cases same : other = id
          · subst other
            simp [LeaseState.setCall, LeasePhase.InProgress] at holding
          · simp only [LeaseState.setCall, ne_eq, same, not_false_eq_true,
              Function.update_of_ne] at named holding
            exact same (coordinated.holder other id holding inProgress named)

/-! ## Runs -/

theorem allOrNothing_from {state : LeaseState Writer}
    (coordinated : Coordinated writers state)
    (events : List LeaseEvent) :
    (∀ prior, prior <+: events →
        AllOrNothing writers (prior.foldl (LeaseState.step writers) state)) ↔
      Steps (LeaseState.step writers) RollsBack state events := by
  induction events generalizing state with
  | nil =>
      constructor
      · exact fun _ => trivial
      · intro _ prior inside
        rw [List.prefix_nil.mp inside]
        exact coordinated.allOrNothing
  | cons event rest induction =>
      constructor
      · intro holds
        have rolls : RollsBack state event := by
          by_contra breaks
          exact coordinated.broken event breaks
            (holds [event] ⟨rest, rfl⟩)
        refine ⟨rolls, (induction (coordinated.step event rolls)).mp ?_⟩
        intro prior inside
        exact holds (event :: prior) (List.cons_prefix_cons.mpr ⟨rfl, inside⟩)
      · rintro ⟨rolls, steps⟩ prior inside
        cases prior with
        | nil => exact coordinated.allOrNothing
        | cons first prior =>
            obtain ⟨same, within⟩ := List.cons_prefix_cons.mp inside
            subst same
            exact (induction (coordinated.step first rolls)).mpr steps
              prior within

/-- Every moment of a run is all or nothing exactly if no resume fails while
an acquisition is rolled back. -/
theorem runLeases_allOrNothing_iff (writers : List Writer)
    (events : List LeaseEvent) :
    (∀ prior, prior <+: events → AllOrNothing writers (runLeases writers prior)) ↔
      Steps (LeaseState.step writers) RollsBack initialState events :=
  allOrNothing_from coordinated_initial events

/-- Three writers: the third does not quiesce, the second does not resume. -/
def failedRollback : List LeaseEvent :=
  [.acquire 0 "task", .settle 0 true, .settle 0 true, .settle 0 false,
    .settle 0 false]

/-- The first writer stays quiesced and the task held. -/
theorem failedRollback_stuck :
    ¬ AllOrNothing ["first", "second", "third"]
      (runLeases ["first", "second", "third"] failedRollback) := by
  intro holds
  have resumed := holds.failed 0 rfl
  exact absurd resumed (by decide)

end Properties

end Motrix.Finalize.ArtifactLease
