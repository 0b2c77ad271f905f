import Motrix.SpeedLimit.EffectiveLimits

/-!
# The speed limit controller

A recompute pushes the limits to the engine when it is ready and they are not
those recorded as pushed last, and records them once the push is answered.
Pushes that were started and not yet answered overlap with everything else.
-/

namespace Motrix.SpeedLimit

structure SpeedLimitState where
  turtle : TurtleState
  effective : SpeedLimitProfile
  activeReason : SpeedLimitReason
deriving DecidableEq

inductive CallPhase where
  | waiting
  | taken
  | settled
deriving DecidableEq

/-- A call of `applyLimits`, with what its recompute holds across the wait. -/
structure Call where
  state : SpeedLimitState
  generation : Nat
  phase : CallPhase
deriving DecidableEq

namespace Call

def limits (call : Call) : SpeedLimitProfile :=
  call.state.effective

def enter (call : Call) (phase : CallPhase) : Call :=
  { call with phase := phase }

end Call

/-- How the recompute that started last has come out so far. -/
inductive Latest where
  | unknown
  | awaits (call : Nat)
  | succeeded (limits : SpeedLimitProfile)
deriving DecidableEq

def Latest.conclude (latest : Latest) (call : Nat) (outcome : Latest) :
    Latest :=
  if latest = .awaits call then outcome else latest

/-- The controller among what it reads and drives.  The calls stand in the
order they started; `writer` is the call whose limits the engine took last,
and `latest` the outcome of the recompute that started last. -/
structure World where
  settings : SpeedLimitSettings
  now : Now
  videoAppRunning : Bool
  ready : Bool
  held : SpeedLimitProfile
  writer : Option Nat
  lastPushed : Option SpeedLimitProfile
  scheduleTimer : Option Nat
  stopped : Bool
  lifecycleGeneration : Nat
  calls : List Call
  latest : Latest
  emitted : List SpeedLimitState

inductive Event where
  | settings (settings : SpeedLimitSettings)
  | clock (now : Now)
  | videoApp (running : Bool)
  | recompute
  | tick
  | start
  | stop
  | engineLeaves
  | engineReady (limits : SpeedLimitProfile)
  | takesEffect (call : Nat)
  | settles (call : Nat) (fulfilled : Bool)

def sameProfile (first second : SpeedLimitProfile) : Bool :=
  first.download == second.download && first.upload == second.upload

theorem sameProfile_iff {first second : SpeedLimitProfile} :
    sameProfile first second = true ↔ first = second := by
  obtain ⟨download, upload⟩ := first
  obtain ⟨download', upload'⟩ := second
  simp [sameProfile]

namespace World

def context (world : World) : EffectiveLimitContext where
  now := world.now
  videoAppRunning := world.videoAppRunning

def getEffective (world : World) : SpeedLimitProfile :=
  computeEffectiveLimits world.settings world.context

def getState (world : World) : SpeedLimitState where
  turtle := world.settings.turtle
  effective := computeEffectiveLimits world.settings world.context
  activeReason := reasonFor world.settings world.context

def isCurrent (world : World) (generation : Nat) : Bool :=
  !world.stopped && world.lifecycleGeneration == generation

def pushes (world : World) (limits : SpeedLimitProfile) : Bool :=
  world.ready &&
    (match world.lastPushed with
    | none => true
    | some pushed => !sameProfile pushed limits)

def emit (world : World) (state : SpeedLimitState) : World :=
  { world with emitted := world.emitted ++ [state] }

def recompute (world : World) : World :=
  if world.stopped then world
  else
    let state := world.getState
    if world.pushes state.effective then
      { world with
        calls := world.calls ++ [{
          state := state
          generation := world.lifecycleGeneration
          phase := .waiting
        }]
        latest := .awaits world.calls.length }
    else
      { world with
        latest :=
          if world.ready then .succeeded state.effective
          else .unknown }.emit state

def onEngineReady (world : World) : World :=
  if world.stopped then world
  else { world with lastPushed := none }.recompute

def tick (world : World) : World :=
  match world.scheduleTimer with
  | none => world
  | some generation =>
      if world.isCurrent generation then world.recompute
      else world

def start (world : World) : World :=
  match world.scheduleTimer with
  | some _ => world
  | none =>
      { world with
        stopped := false
        scheduleTimer := some world.lifecycleGeneration }.recompute

def stop (world : World) : World :=
  { world with
    stopped := true
    lifecycleGeneration :=
      if world.stopped then world.lifecycleGeneration
      else world.lifecycleGeneration + 1
    scheduleTimer := none }

def engineLeaves (world : World) : World :=
  { world with
    ready := false
    latest := .unknown }

/-- A new process comes up with the limits of its command line, and the
supervisor announces it. -/
def engineReady (world : World) (limits : SpeedLimitProfile) : World :=
  if world.ready then world
  else
    { world with
      ready := true
      held := limits
      writer := none }.onEngineReady

def takesEffect (world : World) (index : Nat) : World :=
  match world.calls[index]? with
  | none => world
  | some call =>
      if call.phase = .waiting then
        { world with
          calls := world.calls.set index (call.enter .taken)
          held := call.limits
          writer := some index }
      else world

/-- The recompute goes on after its call: a fulfilled one is recorded while
it is current. -/
def resume (world : World) (index : Nat) (call : Call) (fulfilled : Bool) :
    World :=
  if world.isCurrent call.generation then
    if fulfilled then
      { world with
        lastPushed := some call.limits
        latest := world.latest.conclude index (.succeeded call.limits)
      }.emit call.state
    else
      { world with
        latest := world.latest.conclude index .unknown }.emit call.state
  else
    { world with latest := world.latest.conclude index .unknown }

/-- Only a call that took effect is fulfilled; a failing one may have. -/
def settles (world : World) (index : Nat) (fulfilled : Bool) : World :=
  match world.calls[index]? with
  | none => world
  | some call =>
      if call.phase = .taken ∨ (call.phase = .waiting ∧ fulfilled = false) then
        { world with
          calls := world.calls.set index (call.enter .settled) }.resume
          index call fulfilled
      else world

def step (world : World) : Event → World
  | .settings settings => { world with settings := settings }
  | .clock now => { world with now := now }
  | .videoApp running => { world with videoAppRunning := running }
  | .recompute => world.recompute
  | .tick => world.tick
  | .start => world.start
  | .stop => world.stop
  | .engineLeaves => world.engineLeaves
  | .engineReady limits => world.engineReady limits
  | .takesEffect index => world.takesEffect index
  | .settles index fulfilled => world.settles index fulfilled

/-- A controller that was just constructed. -/
def boot (settings : SpeedLimitSettings) (now : Now) (videoAppRunning : Bool)
    (ready : Bool) (held : SpeedLimitProfile) : World where
  settings := settings
  now := now
  videoAppRunning := videoAppRunning
  ready := ready
  held := held
  writer := none
  lastPushed := none
  scheduleTimer := none
  stopped := false
  lifecycleGeneration := 0
  calls := []
  latest := .unknown
  emitted := []

/-! ## What a recompute does -/

variable {world : World}

theorem pushes_iff {limits : SpeedLimitProfile} :
    world.pushes limits = true ↔
      world.ready = true ∧ world.lastPushed ≠ some limits := by
  unfold pushes
  cases pushed : world.lastPushed with
  | none => simp
  | some profile => simp [← sameProfile_iff]

theorem recompute_stopped (stopped : world.stopped = true) :
    world.recompute = world :=
  if_pos stopped

theorem recompute_pushes (runs : world.stopped = false)
    (pushes : world.pushes world.getEffective = true) :
    world.recompute = { world with
      calls := world.calls ++ [{
        state := world.getState
        generation := world.lifecycleGeneration
        phase := .waiting
      }]
      latest := .awaits world.calls.length } := by
  simp only [getEffective] at pushes
  simp [recompute, runs, getState, pushes]

theorem recompute_skips (runs : world.stopped = false)
    (skips : world.pushes world.getEffective = false) :
    world.recompute = { world with
      latest :=
        if world.ready then .succeeded world.getEffective
        else .unknown
      emitted := world.emitted ++ [world.getState] } := by
  simp only [getEffective] at skips
  simp [recompute, emit, runs, getState, getEffective, skips]

end World

end Motrix.SpeedLimit
