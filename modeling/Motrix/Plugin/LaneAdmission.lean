import Mathlib.Data.List.Basic
import Motrix.Plugin.LaneWaits

/-!
# One plugin lane

The lane admits the entries of the host into one plugin.  Every entry is
chained behind the one admitted before it and, when its turn comes, is refused
or runs.  Those who wait for the lane to drain are told by whatever empties it.
-/

namespace Motrix.LaneAdmission

open PluginLane (PluginCallChain)

/-! ## The lane and its entries -/

inductive Outcome where
  | fulfilled
  | failed
  | refused (message : String)
  deriving DecidableEq

inductive Phase where
  | waiting
  | running
  | settled (outcome : Outcome)
  deriving DecidableEq

/-- An admitted entry, with the entry whose end is its turn. -/
structure Entry where
  chain : PluginCallChain
  signal : Option Nat
  admittedEpoch : Nat
  behind : Option Nat
  phase : Phase
  deriving DecidableEq

structure EntryOptions where
  callChain : Option PluginCallChain
  signal : Option Nat

structure PluginLane where
  pluginId : String
  tail : Option Nat
  queued : Int
  running : Int
  accepting : Bool
  epoch : Nat
  drainWaiters : List Nat

def PluginLane.isDrained (lane : PluginLane) : Bool :=
  lane.queued == 0 && lane.running == 0

/-- The lane, the entries that it admitted, the signals that were aborted, the
calls of `drain` with those that resolved, and what started in which order. -/
structure World where
  lane : PluginLane
  entries : List Entry
  aborted : List Nat
  asked : Nat
  resolved : List Nat
  started : List Nat

inductive Event where
  | run (options : EntryOptions) (current : Option PluginCallChain)
      (uuid : String)
  | turn (index : Nat)
  | finish (index : Nat) (fulfilled : Bool)
  | close
  | reopen
  | cancelQueued
  | drain
  | abort (signal : Nat)

def boot (pluginId : String) : World where
  lane :=
    { pluginId := pluginId
      tail := none
      queued := 0
      running := 0
      accepting := true
      epoch := 0
      drainWaiters := [] }
  entries := []
  aborted := []
  asked := 0
  resolved := []
  started := []

def laneClosedError (pluginId : String) : String :=
  "plugin.runtime.admission_closed: " ++ pluginId

def Phase.isWaiting (phase : Phase) : Bool :=
  phase == .waiting

def Phase.isRunning (phase : Phase) : Bool :=
  phase == .running

def Phase.isSettled : Phase → Bool
  | settled _ => true
  | _ => false

def Phase.hasStarted : Phase → Bool
  | waiting | settled (.refused _) => false
  | _ => true

namespace World

def notifyDrained (world : World) : World :=
  if world.lane.isDrained then
    { world with
      lane := { world.lane with drainWaiters := [] }
      resolved := world.resolved ++ world.lane.drainWaiters }
  else world

/-- Why an entry is rejected at admission. -/
def rejection (world : World) (inherited : Option PluginCallChain) :
    Option String :=
  if !world.lane.accepting then some (laneClosedError world.lane.pluginId)
  else if inherited.any (·.plugins.contains world.lane.pluginId) then
    some "plugin.runtime.reentrant_call"
  else none

def admission (world : World) (options : EntryOptions)
    (inherited : Option PluginCallChain) (uuid : String) : World :=
  { world with
    lane :=
      { world.lane with
        tail := some world.entries.length
        queued := world.lane.queued + 1 }
    entries := world.entries ++
      [{ chain :=
          { id := (inherited.map (·.id)).getD uuid
            plugins := (inherited.map (·.plugins)).getD [] ++
              [world.lane.pluginId] }
         signal := options.signal
         admittedEpoch := world.lane.epoch
         behind := world.lane.tail
         phase := .waiting }] }

def run (world : World) (options : EntryOptions)
    (current : Option PluginCallChain) (uuid : String) : World :=
  let inherited := options.callChain.or current
  match world.rejection inherited with
  | some _ => world
  | none => world.admission options inherited uuid

def setPhase (world : World) (index : Nat) (entry : Entry) (phase : Phase) :
    World :=
  { world with
    entries := world.entries.set index { entry with phase := phase } }

/-- Why an entry is refused when its turn comes. -/
def refusal (world : World) (entry : Entry) : Option String :=
  if entry.admittedEpoch ≠ world.lane.epoch then
    some (laneClosedError world.lane.pluginId)
  else if entry.signal.any world.aborted.contains then
    some "plugin.runtime.entry_aborted"
  else none

def begin (world : World) (index : Nat) (entry : Entry) : World :=
  let taken :=
    { world with
      lane := { world.lane with queued := world.lane.queued - 1 } }
  match world.refusal entry with
  | some message =>
      (taken.setPhase index entry (.settled (.refused message))).notifyDrained
  | none =>
      { taken.setPhase index entry .running with
        lane := { taken.lane with running := taken.lane.running + 1 }
        started := world.started ++ [index] }

/-- A turn comes when what the entry is chained behind has settled. -/
def isTurn (world : World) (entry : Entry) : Bool :=
  entry.phase.isWaiting && entry.behind.all fun before =>
    (world.entries[before]?.map (·.phase.isSettled)).getD false

def turn (world : World) (index : Nat) : World :=
  match world.entries[index]? with
  | none => world
  | some entry =>
      if world.isTurn entry then world.begin index entry else world

def conclude (world : World) (index : Nat) (entry : Entry)
    (fulfilled : Bool) : World :=
  let outcome := if fulfilled then .fulfilled else .failed
  ({ world with
      lane := { world.lane with running := world.lane.running - 1 }
    }.setPhase index entry (.settled outcome)).notifyDrained

def finish (world : World) (index : Nat) (fulfilled : Bool) : World :=
  match world.entries[index]? with
  | none => world
  | some entry =>
      if entry.phase.isRunning then
        world.conclude index entry fulfilled
      else world

def close (world : World) : World :=
  { world with lane := { world.lane with accepting := false } }

def reopen (world : World) : World :=
  { world with lane := { world.lane with accepting := true } }

def cancelQueued (world : World) : World :=
  { world with lane := { world.lane with epoch := world.lane.epoch + 1 } }

def drain (world : World) : World :=
  if world.lane.isDrained then
    { world with
      asked := world.asked + 1
      resolved := world.resolved ++ [world.asked] }
  else
    { world with
      lane :=
        { world.lane with
          drainWaiters := world.lane.drainWaiters ++ [world.asked] }
      asked := world.asked + 1 }

def step (world : World) : Event → World
  | .run options current uuid => world.run options current uuid
  | .turn index => world.turn index
  | .finish index fulfilled => world.finish index fulfilled
  | .close => world.close
  | .reopen => world.reopen
  | .cancelQueued => world.cancelQueued
  | .drain => world.drain
  | .abort signal => { world with aborted := signal :: world.aborted }

def play (world : World) (events : List Event) : World :=
  events.foldl step world

end World

/-! ## What every run keeps -/

def before : Nat → Option Nat
  | 0 => none
  | index + 1 => some index

/-- The entries are a queue: behind one that has not settled all wait. -/
structure Queued (world : World) : Prop where
  tail : world.lane.tail = before world.entries.length
  chained : ∀ index entry, world.entries[index]? = some entry →
    entry.behind = before index
  ordered : ∀ (i j : Nat) (first second : Entry), i < j →
    world.entries[i]? = some first → world.entries[j]? = some second →
      second.phase.isWaiting = false → first.phase.isSettled = true
  epochs : ∀ entry ∈ world.entries, entry.admittedEpoch ≤ world.lane.epoch

structure Counted (world : World) : Prop where
  queued : world.lane.queued =
    (world.entries.countP (·.phase.isWaiting) : Nat)
  running : world.lane.running =
    (world.entries.countP (·.phase.isRunning) : Nat)

structure Told (world : World) : Prop where
  idle : world.lane.isDrained = true → world.lane.drainWaiters = []
  kept : ∀ call, call < world.asked ↔
    call ∈ world.resolved ∨ call ∈ world.lane.drainWaiters

structure Begun (world : World) : Prop where
  begun : ∀ index, index ∈ world.started ↔ ∃ entry,
    world.entries[index]? = some entry ∧ entry.phase.hasStarted = true
  sorted : world.started.Pairwise (· < ·)

theorem lookup_set {entries : List Entry} {index : Nat} {entry next : Entry}
    (found : entries[index]? = some entry) (other : Nat) :
    (entries.set index next)[other]? =
      if index = other then some next else entries[other]? := by
  have inside := (List.getElem?_eq_some_iff.mp found).1
  rw [List.getElem?_set]
  simp [inside]

theorem countP_set (counts : Entry → Bool) {entries : List Entry}
    {index : Nat} {entry next : Entry}
    (found : entries[index]? = some entry) :
    (entries.set index next).countP counts + (counts entry).toNat =
      entries.countP counts + (counts next).toNat := by
  induction entries generalizing index with
  | nil => simp at found
  | cons head entries induction =>
      cases index with
      | zero =>
          have same : head = entry := by simpa using found
          cases first : counts entry <;> cases second : counts next <;>
            simp [same, first, second]
      | succ index =>
          have rest := induction (by simpa using found)
          simp only [List.set_cons_succ, List.countP_cons]
          omega

theorem boot_queued (pluginId : String) : Queued (boot pluginId) where
  tail := rfl
  chained index entry found := by simp [boot] at found
  ordered i j first second _ found := by simp [boot] at found
  epochs entry member := by simp [boot] at member

theorem boot_counted (pluginId : String) : Counted (boot pluginId) :=
  ⟨rfl, rfl⟩

theorem boot_told (pluginId : String) : Told (boot pluginId) where
  idle _ := rfl
  kept call := by simp [boot]

theorem boot_begun (pluginId : String) : Begun (boot pluginId) where
  begun index := by simp [boot]
  sorted := .nil

namespace World

variable {world : World} {index : Nat} {entry : Entry}

@[simp] theorem notifyDrained_entries :
    world.notifyDrained.entries = world.entries := by
  unfold notifyDrained
  split <;> rfl

@[simp] theorem notifyDrained_started :
    world.notifyDrained.started = world.started := by
  unfold notifyDrained
  split <;> rfl

@[simp] theorem notifyDrained_asked :
    world.notifyDrained.asked = world.asked := by
  unfold notifyDrained
  split <;> rfl

/-- Telling those who wait changes nothing else of the lane. -/
theorem notifyDrained_lane :
    world.notifyDrained.lane.tail = world.lane.tail ∧
      world.notifyDrained.lane.epoch = world.lane.epoch ∧
      world.notifyDrained.lane.queued = world.lane.queued ∧
      world.notifyDrained.lane.running = world.lane.running := by
  unfold notifyDrained
  split <;> exact ⟨rfl, rfl, rfl, rfl⟩

theorem notifyDrained_isDrained :
    world.notifyDrained.lane.isDrained = world.lane.isDrained := by
  simp [PluginLane.isDrained, notifyDrained_lane]

theorem notifyDrained_queued (queued : Queued world) :
    Queued world.notifyDrained where
  tail := by simpa [notifyDrained_lane] using queued.tail
  chained := by simpa using queued.chained
  ordered := by simpa using queued.ordered
  epochs := by simpa [notifyDrained_lane] using queued.epochs

theorem notifyDrained_counted (counted : Counted world) :
    Counted world.notifyDrained := by
  constructor
  · simpa [notifyDrained_lane] using counted.queued
  · simpa [notifyDrained_lane] using counted.running

theorem notifyDrained_begun (begun : Begun world) :
    Begun world.notifyDrained := by
  constructor
  · simpa using begun.begun
  · simpa using begun.sorted

theorem mem_notifyDrained (call : Nat) :
    call ∈ world.notifyDrained.resolved ↔ call ∈ world.resolved ∨
      call ∈ world.lane.drainWaiters ∧ world.lane.isDrained = true := by
  unfold World.notifyDrained
  split <;> rename_i drained <;> simp [drained]

theorem mem_notifyDrained_told {call : Nat}
    (member : call ∈ world.notifyDrained.resolved) :
    call ∈ world.resolved ∨ world.notifyDrained.lane.isDrained = true := by
  rw [mem_notifyDrained] at member
  exact member.imp_right fun waits => notifyDrained_isDrained.trans waits.2

theorem notifyDrained_told
    (kept : ∀ call, call < world.asked ↔
      call ∈ world.resolved ∨ call ∈ world.lane.drainWaiters) :
    Told world.notifyDrained := by
  constructor
  · intro drained
    rw [notifyDrained_isDrained] at drained
    simp [World.notifyDrained, drained]
  · intro call
    rw [notifyDrained_asked, kept]
    unfold World.notifyDrained
    split <;> simp

/-- An entry that has not settled may change its phase once all in front of
it have settled. -/
theorem setPhase_queued (queued : Queued world) {phase : Phase}
    (found : world.entries[index]? = some entry)
    (front : ∀ i first, i < index → world.entries[i]? = some first →
      first.phase.isSettled = true)
    (open' : entry.phase.isSettled = false) :
    Queued (world.setPhase index entry phase) where
  tail := by simpa [setPhase] using queued.tail
  chained other changed found' := by
    simp only [setPhase, lookup_set found] at found'
    split at found'
    next same =>
      subst same
      rw [← Option.some.inj found']
      exact queued.chained index entry found
    next => exact queued.chained other changed found'
  ordered i j first second less found₁ found₂ passed := by
    simp only [setPhase, lookup_set found] at found₁ found₂
    split at found₂
    next same =>
      subst same
      rw [if_neg less.ne'] at found₁
      exact front i first less found₁
    next =>
      split at found₁
      next same =>
        subst same
        have settled := queued.ordered index j entry second less found found₂
          passed
        rw [open'] at settled
        cases settled
      next => exact queued.ordered i j first second less found₁ found₂ passed
  epochs changed member := by
    rcases List.mem_or_eq_of_mem_set member with old | rfl
    · exact queued.epochs changed old
    · exact queued.epochs entry (List.mem_of_getElem? found)

theorem isTurn_front (queued : Queued world)
    (found : world.entries[index]? = some entry)
    (turn : world.isTurn entry = true) :
    ∀ i first, i < index → world.entries[i]? = some first →
      first.phase.isSettled = true := by
  intro i first less found'
  cases index with
  | zero => cases less
  | succ last =>
      have behind := queued.chained (last + 1) entry found
      simp only [isTurn, behind, before, Option.all_some,
        Bool.and_eq_true] at turn
      cases previous : world.entries[last]? with
      | none => simp [previous] at turn
      | some previous' =>
          have settled : previous'.phase.isSettled = true := by
            simpa [previous] using turn.2
          rcases Nat.lt_succ_iff_lt_or_eq.mp less with further | rfl
          · apply queued.ordered i last first previous' further found' previous
            cases phase : previous'.phase <;> simp_all [Phase.isSettled]
            rfl
          · rwa [Option.some.inj (found'.symm.trans previous)]

theorem isRunning_phase (runs : entry.phase.isRunning = true) :
    entry.phase = .running := by
  simpa [Phase.isRunning] using runs

theorem isTurn_phase (turn : world.isTurn entry = true) :
    entry.phase = .waiting := by
  simp only [isTurn, Bool.and_eq_true] at turn
  simpa [Phase.isWaiting] using turn.1

theorem isRunning_front (queued : Queued world)
    (found : world.entries[index]? = some entry)
    (runs : entry.phase.isRunning = true) :
    ∀ i first, i < index → world.entries[i]? = some first →
      first.phase.isSettled = true := by
  intro i first less found'
  apply queued.ordered i index first entry less found' found
  rw [isRunning_phase runs]
  rfl

theorem admission_queued (queued : Queued world) (options : EntryOptions)
    (inherited : Option PluginCallChain) (uuid : String) :
    Queued (world.admission options inherited uuid) where
  tail := by simp [admission, before]
  chained i found := by
    intro listed
    simp only [admission, List.getElem?_append] at listed
    split at listed
    next => exact queued.chained i found listed
    next past =>
      obtain ⟨inside, rfl⟩ := List.getElem?_eq_some_iff.mp listed
      have same : i = world.entries.length := by
        simp at inside
        omega
      simpa [same] using queued.tail
  ordered i j first second less found₁ found₂ passed := by
    simp only [admission, List.getElem?_append] at found₁ found₂
    split at found₂
    next inside =>
      rw [if_pos (less.trans inside)] at found₁
      exact queued.ordered i j first second less found₁ found₂ passed
    next =>
      obtain ⟨_, rfl⟩ := List.getElem?_eq_some_iff.mp found₂
      simp [Phase.isWaiting] at passed
  epochs changed member := by
    rcases List.mem_append.mp member with old | new
    · exact queued.epochs changed old
    · rw [List.mem_singleton.mp new]
      exact Nat.le_refl _

theorem begin_queued (queued : Queued world)
    (found : world.entries[index]? = some entry)
    (turn : world.isTurn entry = true) : Queued (world.begin index entry) := by
  have front := isTurn_front queued found turn
  have open' : entry.phase.isSettled = false := by
    rw [isTurn_phase turn]
    rfl
  unfold World.begin
  cases world.refusal entry with
  | some message =>
      apply notifyDrained_queued
      have moved := @setPhase_queued _ _ _ queued
        (.settled (.refused message)) found front open'
      exact ⟨moved.tail, moved.chained, moved.ordered, moved.epochs⟩
  | none =>
      have moved := @setPhase_queued _ _ _ queued .running found front open'
      exact ⟨moved.tail, moved.chained, moved.ordered, moved.epochs⟩

theorem conclude_queued (queued : Queued world)
    (found : world.entries[index]? = some entry)
    (runs : entry.phase.isRunning = true) (fulfilled : Bool) :
    Queued (world.conclude index entry fulfilled) := by
  have front := isRunning_front queued found runs
  have open' : entry.phase.isSettled = false := by
    rw [isRunning_phase runs]
    rfl
  apply notifyDrained_queued
  have moved := @setPhase_queued _ _ _ queued
    (.settled (if fulfilled then .fulfilled else .failed)) found front open'
  exact ⟨moved.tail, moved.chained, moved.ordered, moved.epochs⟩

/-- What a step can do. -/
theorem step_cases {holds : World → Prop} (event : Event)
    (stays : holds world)
    (admits : ∀ options inherited uuid,
      holds (world.admission options inherited uuid))
    (begins : ∀ index entry, world.entries[index]? = some entry →
      world.isTurn entry = true → holds (world.begin index entry))
    (concludes : ∀ index entry fulfilled,
      world.entries[index]? = some entry → entry.phase.isRunning = true →
        holds (world.conclude index entry fulfilled))
    (accepts : ∀ accepting,
      holds { world with lane := { world.lane with accepting := accepting } })
    (cancels : holds world.cancelQueued) (drains : holds world.drain)
    (aborts : ∀ aborted, holds { world with aborted := aborted }) :
    holds (world.step event) := by
  cases event with
  | run options current uuid =>
      simp only [step, run]
      split
      · exact stays
      · exact admits options _ uuid
  | turn index =>
      simp only [step, turn]
      split
      · exact stays
      · rename_i entry found
        split
        · rename_i turn
          exact begins index entry found turn
        · exact stays
  | finish index fulfilled =>
      simp only [step, finish]
      split
      · exact stays
      · rename_i entry found
        split
        · rename_i runs
          exact concludes index entry fulfilled found runs
        · exact stays
  | close => exact accepts false
  | reopen => exact accepts true
  | cancelQueued => exact cancels
  | drain => exact drains
  | abort signal => exact aborts (signal :: world.aborted)

theorem step_queued (queued : Queued world) (event : Event) :
    Queued (world.step event) := by
  have kept : ∀ next : World, next.lane.tail = world.lane.tail →
      next.entries = world.entries → world.lane.epoch ≤ next.lane.epoch →
        Queued next := by
    intro next tail entries epoch
    constructor
    · rw [tail, entries]
      exact queued.tail
    · rw [entries]
      exact queued.chained
    · rw [entries]
      exact queued.ordered
    · rw [entries]
      exact fun entry member => (queued.epochs entry member).trans epoch
  apply step_cases event queued
  · exact admission_queued queued
  · exact fun index entry => begin_queued queued
  · exact fun index entry fulfilled found runs =>
      conclude_queued queued found runs fulfilled
  · exact fun accepting => kept _ rfl rfl (Nat.le_refl _)
  · exact kept _ rfl rfl (Nat.le_succ _)
  · unfold drain
    split <;> exact kept _ rfl rfl (Nat.le_refl _)
  · exact fun aborted => kept _ rfl rfl (Nat.le_refl _)

/-- How the counters follow a change of phase. -/
theorem setPhase_counted (counted : Counted world)
    (found : world.entries[index]? = some entry) (phase : Phase)
    (lane : PluginLane)
    (queued : lane.queued = world.lane.queued +
      (phase.isWaiting.toNat - entry.phase.isWaiting.toNat))
    (running : lane.running = world.lane.running +
      (phase.isRunning.toNat - entry.phase.isRunning.toNat)) :
    lane.queued = (((world.setPhase index entry phase).entries.countP
        (·.phase.isWaiting) : Nat) : Int) ∧
      lane.running = ((world.setPhase index entry phase).entries.countP
        (·.phase.isRunning) : Nat) := by
  have waits := @countP_set (·.phase.isWaiting) _ _ _
    { entry with phase := phase } found
  have runs := @countP_set (·.phase.isRunning) _ _ _
    { entry with phase := phase } found
  have waited := counted.queued
  have ran := counted.running
  simp only [setPhase] at *
  constructor <;> omega

theorem step_counted (counted : Counted world) (event : Event) :
    Counted (world.step event) := by
  have kept : ∀ next : World, next.lane.queued = world.lane.queued →
      next.lane.running = world.lane.running →
        next.entries = world.entries → Counted next := by
    intro next queued running entries
    constructor
    · rw [queued, entries]
      exact counted.queued
    · rw [running, entries]
      exact counted.running
  apply step_cases event counted
  · intro options inherited uuid
    constructor <;>
      simp [admission, counted.queued, counted.running, Phase.isWaiting,
        Phase.isRunning]
  · intro index entry found turn
    have phase := isTurn_phase turn
    unfold World.begin
    cases world.refusal entry with
    | some message =>
        have counts := setPhase_counted counted found
          (.settled (.refused message))
          { world.lane with queued := world.lane.queued - 1 }
          (by rw [phase]; rfl) (by rw [phase]; exact (Int.add_zero _).symm)
        exact notifyDrained_counted ⟨counts.1, counts.2⟩
    | none =>
        have counts := setPhase_counted counted found .running
          { world.lane with
            queued := world.lane.queued - 1
            running := world.lane.running + 1 }
          (by rw [phase]; rfl) (by rw [phase]; rfl)
        exact ⟨counts.1, counts.2⟩
  · intro index entry fulfilled found runs
    have phase := isRunning_phase runs
    have counts := setPhase_counted counted found
      (.settled (if fulfilled then .fulfilled else .failed))
      { world.lane with running := world.lane.running - 1 }
      (by rw [phase]; exact (Int.add_zero _).symm) (by rw [phase]; rfl)
    exact notifyDrained_counted ⟨counts.1, counts.2⟩
  · exact fun accepting => kept _ rfl rfl rfl
  · exact kept _ rfl rfl rfl
  · unfold drain
    split <;> exact kept _ rfl rfl rfl
  · exact fun aborted => kept _ rfl rfl rfl

theorem step_told (counted : Counted world) (told : Told world)
    (event : Event) : Told (world.step event) := by
  have kept : ∀ next : World, next.asked = world.asked →
      next.resolved = world.resolved →
      next.lane.drainWaiters = world.lane.drainWaiters →
      ∀ call, call < next.asked ↔
        call ∈ next.resolved ∨ call ∈ next.lane.drainWaiters := by
    intro next asked resolved waiters call
    rw [asked, resolved, waiters]
    exact told.kept call
  apply step_cases event told
  · intro options inherited uuid
    constructor
    · intro drained
      have waits := counted.queued
      simp only [admission, PluginLane.isDrained, Bool.and_eq_true,
        beq_iff_eq] at drained
      omega
    · exact kept _ rfl rfl rfl
  · intro index entry found turn
    unfold World.begin
    cases world.refusal entry with
    | some message => exact notifyDrained_told (kept _ rfl rfl rfl)
    | none =>
        constructor
        · intro drained
          have ran := counted.running
          simp only [PluginLane.isDrained, Bool.and_eq_true,
            beq_iff_eq] at drained
          omega
        · exact kept _ rfl rfl rfl
  · exact fun index entry fulfilled _ _ =>
      notifyDrained_told (kept _ rfl rfl rfl)
  · exact fun accepting => ⟨told.idle, kept _ rfl rfl rfl⟩
  · exact ⟨told.idle, kept _ rfl rfl rfl⟩
  · unfold drain
    split
    · rename_i drained
      refine ⟨told.idle, fun call => ?_⟩
      rw [Nat.lt_succ_iff_lt_or_eq, told.kept call, List.mem_append,
        List.mem_singleton]
      exact or_right_comm
    · rename_i busy
      refine ⟨fun drained => absurd drained busy, fun call => ?_⟩
      rw [Nat.lt_succ_iff_lt_or_eq, told.kept call, List.mem_append,
        List.mem_singleton]
      exact or_assoc
  · exact fun aborted => ⟨told.idle, kept _ rfl rfl rfl⟩

theorem setPhase_begun (begun : Begun world)
    (found : world.entries[index]? = some entry) {phase : Phase}
    {started : List Nat}
    (same : ∀ place, place ≠ index →
      (place ∈ started ↔ place ∈ world.started))
    (this' : index ∈ started ↔ phase.hasStarted = true) (place : Nat) :
    place ∈ started ↔ ∃ changed,
      (world.setPhase index entry phase).entries[place]? = some changed ∧
        changed.phase.hasStarted = true := by
  simp only [setPhase, lookup_set found]
  by_cases other : place = index
  · subst other
    simp [this']
  · rw [same place other, begun.begun place, if_neg (Ne.symm other)]

theorem hasStarted_passed {phase : Phase} (started : phase.hasStarted = true) :
    phase.isWaiting = false := by
  cases phase with
  | waiting => cases started
  | running => rfl
  | settled outcome => rfl

theorem unstarted (begun : Begun world)
    (found : world.entries[index]? = some entry)
    (waits : entry.phase.hasStarted = false) : index ∉ world.started := by
  rw [begun.begun]
  rintro ⟨other, listed, started⟩
  rw [Option.some.inj (found.symm.trans listed)] at waits
  rw [waits] at started
  cases started

theorem step_begun (queued : Queued world) (begun : Begun world)
    (event : Event) : Begun (world.step event) := by
  apply step_cases event begun
  · intro options inherited uuid
    refine ⟨fun place => ?_, begun.sorted⟩
    refine (begun.begun place).trans ?_
    simp only [admission, List.getElem?_append]
    split
    · rfl
    · rename_i past
      rw [List.getElem?_eq_none (Nat.le_of_not_lt past)]
      constructor
      · rintro ⟨_, found, _⟩
        cases found
      · rintro ⟨_, found, started⟩
        obtain ⟨_, rfl⟩ := List.getElem?_eq_some_iff.mp found
        simp [Phase.hasStarted] at started
  · intro index entry found turn
    have waits := isTurn_phase turn
    have fresh := unstarted begun found (by rw [waits]; rfl)
    unfold World.begin
    cases world.refusal entry with
    | some message =>
        apply notifyDrained_begun
        refine ⟨setPhase_begun begun found (fun _ _ => Iff.rfl) ?_,
          begun.sorted⟩
        exact iff_of_false fresh Bool.false_ne_true
    | none =>
        refine ⟨setPhase_begun begun found (fun place other => ?_) ?_, ?_⟩
        · simp [other]
        · simp [Phase.hasStarted]
        · rw [List.pairwise_append]
          refine ⟨begun.sorted, List.pairwise_singleton _ _, ?_⟩
          intro place member last same
          rw [List.mem_singleton.mp same]
          obtain ⟨other, listed, started⟩ := (begun.begun place).mp member
          rcases Nat.lt_trichotomy place index with less | rfl | more
          · exact less
          · exact absurd member fresh
          · have settled := queued.ordered index place entry other more found
              listed (hasStarted_passed started)
            rw [waits] at settled
            cases settled
  · intro index entry fulfilled found runs
    apply notifyDrained_begun
    refine ⟨setPhase_begun begun found (fun _ _ => Iff.rfl) ?_, begun.sorted⟩
    have started : index ∈ world.started :=
      (begun.begun index).mpr ⟨entry, found, by rw [isRunning_phase runs]; rfl⟩
    exact iff_of_true started (by cases fulfilled <;> rfl)
  · exact fun accepting => ⟨begun.begun, begun.sorted⟩
  · exact ⟨begun.begun, begun.sorted⟩
  · unfold drain
    split <;> exact ⟨begun.begun, begun.sorted⟩
  · exact fun aborted => ⟨begun.begun, begun.sorted⟩

/-! ## Entries that were cancelled -/

/-- An entry of an epoch that is over, which has not started. -/
structure Barred (index : Nat) (world : World) : Prop where
  old : ∃ entry, world.entries[index]? = some entry ∧
    entry.admittedEpoch < world.lane.epoch
  unstarted : index ∉ world.started

theorem setPhase_barred {place : Nat} (barred : Barred place world)
    (found : world.entries[index]? = some entry) (phase : Phase) :
    ∃ changed, (world.setPhase index entry phase).entries[place]? =
      some changed ∧ changed.admittedEpoch < world.lane.epoch := by
  obtain ⟨old, listed, epoch⟩ := barred.old
  simp only [setPhase, lookup_set found]
  by_cases same : index = place
  · subst same
    rw [Option.some.inj (found.symm.trans listed)]
    exact ⟨_, if_pos rfl, epoch⟩
  · rw [if_neg same]
    exact ⟨old, listed, epoch⟩

theorem notifyDrained_barred {place : Nat} (barred : Barred place world) :
    Barred place world.notifyDrained := by
  constructor
  · simpa [notifyDrained_lane] using barred.old
  · simpa using barred.unstarted

theorem step_barred {place : Nat} (barred : Barred place world)
    (event : Event) : Barred place (world.step event) := by
  apply step_cases event barred
  · intro options inherited uuid
    obtain ⟨entry, found, epoch⟩ := barred.old
    refine ⟨⟨entry, ?_, epoch⟩, barred.unstarted⟩
    simp only [admission]
    rw [List.getElem?_append_left (List.getElem?_eq_some_iff.mp found).1]
    exact found
  · intro index entry found turn
    cases refused : world.refusal entry with
    | some message =>
        unfold World.begin
        simp only [refused]
        exact notifyDrained_barred ⟨setPhase_barred barred found _,
          barred.unstarted⟩
    | none =>
        have other : place ≠ index := by
          rintro rfl
          obtain ⟨old, listed, epoch⟩ := barred.old
          rw [← Option.some.inj (found.symm.trans listed)] at epoch
          simp [refusal, epoch.ne] at refused
        unfold World.begin
        simp only [refused]
        refine ⟨setPhase_barred barred found .running, ?_⟩
        simp [barred.unstarted, other]
  · intro index entry fulfilled found runs
    exact notifyDrained_barred ⟨setPhase_barred barred found _,
      barred.unstarted⟩
  · exact fun accepting => ⟨barred.old, barred.unstarted⟩
  · obtain ⟨entry, found, epoch⟩ := barred.old
    exact ⟨⟨entry, found, epoch.trans (Nat.lt_succ_self _)⟩,
      barred.unstarted⟩
  · unfold drain
    split <;> exact ⟨barred.old, barred.unstarted⟩
  · exact fun aborted => ⟨barred.old, barred.unstarted⟩

/-! ## Those who wait for the lane -/

theorem step_asked (event : Event) :
    world.asked ≤ (world.step event).asked := by
  apply @step_cases world (fun next => world.asked ≤ next.asked) event
  · exact Nat.le_refl _
  · exact fun _ _ _ => Nat.le_refl _
  · intro index entry found turn
    unfold World.begin
    cases world.refusal entry with
    | some message => simp [setPhase]
    | none => exact Nat.le_refl _
  · intro index entry fulfilled _ _
    simp [conclude, setPhase]
  · exact fun _ => Nat.le_refl _
  · exact Nat.le_refl _
  · unfold drain
    split <;> exact Nat.le_succ _
  · exact fun _ => Nat.le_refl _

/-- A call of `drain` is told by the step that leaves the lane empty. -/
theorem step_resolves (counted : Counted world) (told : Told world)
    {call : Nat} (asked : call < world.asked) (event : Event) :
    call ∈ (world.step event).resolved ↔
      call ∈ world.resolved ∨ (world.step event).lane.isDrained = true := by
  have after := step_told counted told event
  constructor
  · apply @step_cases world (fun next => call ∈ next.resolved →
      call ∈ world.resolved ∨ next.lane.isDrained = true) event
    · exact fun member => .inl member
    · exact fun _ _ _ member => .inl member
    · intro index entry found turn
      unfold World.begin
      cases world.refusal entry with
      | some message => exact mem_notifyDrained_told
      | none => exact fun member => .inl member
    · exact fun index entry fulfilled _ _ => mem_notifyDrained_told
    · exact fun _ member => .inl member
    · exact fun member => .inl member
    · unfold drain
      split
      · rename_i drained
        exact fun _ => .inr drained
      · exact fun member => .inl member
    · exact fun _ member => .inl member
  · rintro (member | drained)
    · apply @step_cases world (fun next => call ∈ next.resolved) event member
      · exact fun _ _ _ => member
      · intro index entry found turn
        unfold World.begin
        cases world.refusal entry with
        | some message => exact (mem_notifyDrained call).mpr (.inl member)
        | none => exact member
      · exact fun index entry fulfilled _ _ =>
          (mem_notifyDrained call).mpr (.inl member)
      · exact fun _ => member
      · exact member
      · unfold drain
        split
        · exact List.mem_append_left _ member
        · exact member
      · exact fun _ => member
    · have kept := (after.kept call).mp (asked.trans_le (step_asked event))
      rw [after.idle drained] at kept
      exact kept.resolve_right List.not_mem_nil

/-! ## Whole runs -/

structure Sound (world : World) : Prop where
  queued : Queued world
  counted : Counted world
  told : Told world
  begun : Begun world

theorem step_sound (sound : Sound world) (event : Event) :
    Sound (world.step event) where
  queued := step_queued sound.queued event
  counted := step_counted sound.counted event
  told := step_told sound.counted sound.told event
  begun := step_begun sound.queued sound.begun event

theorem play_sound (sound : Sound world) (events : List Event) :
    Sound (world.play events) := by
  induction events generalizing world with
  | nil => exact sound
  | cons event rest induction => exact induction (step_sound sound event)

theorem play_barred {place : Nat} (barred : Barred place world)
    (events : List Event) : Barred place (world.play events) := by
  induction events generalizing world with
  | nil => exact barred
  | cons event rest induction => exact induction (step_barred barred event)

theorem play_resolves (sound : Sound world) {call : Nat}
    (asked : call < world.asked) (events : List Event) :
    call ∈ (world.play events).resolved ↔ call ∈ world.resolved ∨
      ∃ first event last, events = first ++ event :: last ∧
        (world.play (first ++ [event])).lane.isDrained = true := by
  induction events generalizing world with
  | nil => simp [play]
  | cons event rest induction =>
      have later := induction (step_sound sound event)
        (asked.trans_le (step_asked event))
      have now := step_resolves sound.counted sound.told asked event
      change _ ∈ ((world.step event).play rest).resolved ↔ _
      rw [later, now, or_assoc]
      apply or_congr_right
      constructor
      · rintro (drained | ⟨first, other, last, rfl, drained⟩)
        · exact ⟨[], event, rest, rfl, drained⟩
        · exact ⟨event :: first, other, last, rfl, drained⟩
      · rintro ⟨first, other, last, split, drained⟩
        cases first with
        | nil =>
            obtain ⟨rfl, rfl⟩ := List.cons.inj split
            exact .inl drained
        | cons head first =>
            obtain ⟨rfl, rfl⟩ := List.cons.inj split
            exact .inr ⟨first, other, last, rfl, drained⟩

end World

theorem boot_sound (pluginId : String) : World.Sound (boot pluginId) where
  queued := boot_queued pluginId
  counted := boot_counted pluginId
  told := boot_told pluginId
  begun := boot_begun pluginId

def history (pluginId : String) (events : List Event) : World :=
  (boot pluginId).play events

theorem history_sound (pluginId : String) (events : List Event) :
    World.Sound (history pluginId events) :=
  World.play_sound (boot_sound pluginId) events

theorem open_count (entries : List Entry) :
    entries.countP (·.phase.isWaiting) + entries.countP (·.phase.isRunning) =
      entries.countP (!·.phase.isSettled) := by
  induction entries with
  | nil => rfl
  | cons entry entries induction =>
      simp only [List.countP_cons, ← induction]
      cases entry.phase <;>
        simp [Phase.isWaiting, Phase.isRunning, Phase.isSettled] <;> omega

theorem history_append (pluginId : String) (earlier first : List Event)
    (event : Event) :
    history pluginId (earlier ++ event :: first) =
      ((history pluginId earlier).step event).play first :=
  List.foldl_append

/-- A call of `drain` is answered once the lane has been empty since. -/
theorem history_drain (pluginId : String) (earlier later : List Event) :
    (history pluginId earlier).asked ∈
        (history pluginId (earlier ++ Event.drain :: later)).resolved ↔
      ∃ first last, later = first ++ last ∧
        (history pluginId (earlier ++ Event.drain :: first)).lane.isDrained =
          true := by
  have held := history_sound pluginId earlier
  have asked : (history pluginId earlier).asked <
      ((history pluginId earlier).step .drain).asked := by
    simp only [World.step, World.drain]
    split <;> exact Nat.lt_succ_self _
  have answered := World.play_resolves (World.step_sound held .drain) asked
    later
  have fresh : (history pluginId earlier).asked ∉
      (history pluginId earlier).resolved := fun member =>
    absurd ((held.told.kept _).mpr (.inl member)) (Nat.lt_irrefl _)
  have now : (history pluginId earlier).asked ∈
        ((history pluginId earlier).step .drain).resolved ↔
      ((history pluginId earlier).step .drain).lane.isDrained = true := by
    simp only [World.step, World.drain]
    split
    · rename_i drained
      simp [drained]
    · rename_i busy
      exact iff_of_false fresh busy
  simp only [history_append]
  refine answered.trans ?_
  rw [now]
  constructor
  · rintro (drained | ⟨first, event, last, rfl, drained⟩)
    · exact ⟨[], later, rfl, drained⟩
    · exact ⟨first ++ [event], last, by simp, drained⟩
  · rintro ⟨first, last, rfl, drained⟩
    rcases List.eq_nil_or_concat first with rfl | ⟨front, event, rfl⟩
    · exact .inl drained
    · exact .inr ⟨front, event, last, by simp, by simpa using drained⟩

/-- What the lane does in every run: entries start in the order of their
admission, each behind the end of all before it; what was cancelled while it
waited never starts; the counters count the entries that have not settled; and
a call of `drain` is answered exactly once the lane has been empty. -/
theorem history_serves (pluginId : String) (events : List Event) :
    (history pluginId events).started.Pairwise (· < ·) ∧
    (∀ (i j : Nat) (first second : Entry),
      (history pluginId events).entries[i]? = some first →
      (history pluginId events).entries[j]? = some second →
      i < j → second.phase.isWaiting = false →
        first.phase.isSettled = true) ∧
    (∀ index, index ∈ (history pluginId events).started ↔ ∃ entry,
      (history pluginId events).entries[index]? = some entry ∧
        entry.phase.hasStarted = true) ∧
    (∀ earlier later index,
      events = earlier ++ Event.cancelQueued :: later →
      index < (history pluginId earlier).entries.length →
      index ∉ (history pluginId earlier).started →
        index ∉ (history pluginId events).started) ∧
    (∀ options current uuid,
      (history pluginId events).rejection
          (options.callChain.or current) ≠ none →
        (history pluginId events).step (.run options current uuid) =
          history pluginId events) ∧
    (history pluginId events).lane.queued +
        (history pluginId events).lane.running =
      ((history pluginId events).entries.countP
        (!·.phase.isSettled) : Nat) ∧
    ∀ earlier later, events = earlier ++ Event.drain :: later →
      ((history pluginId earlier).asked ∈
          (history pluginId events).resolved ↔
        ∃ first last, later = first ++ last ∧
          (history pluginId (earlier ++ Event.drain :: first)).lane.isDrained =
            true) := by
  have sound := history_sound pluginId events
  refine ⟨sound.begun.sorted, ?_, sound.begun.begun, ?_, ?_, ?_, ?_⟩
  · exact fun i j first second found₁ found₂ less passed =>
      sound.queued.ordered i j first second less found₁ found₂ passed
  · rintro earlier later index rfl inside waits
    have held := history_sound pluginId earlier
    have found := List.getElem?_eq_getElem inside
    have epoch := held.queued.epochs _ (List.mem_of_getElem? found)
    have barred : World.Barred index
        (history pluginId earlier).cancelQueued :=
      ⟨⟨_, found, Nat.lt_succ_of_le epoch⟩, waits⟩
    have kept := (World.play_barred barred later).unstarted
    rwa [history_append]
  · intro options current uuid rejected
    obtain ⟨message, rejects⟩ := Option.ne_none_iff_exists'.mp rejected
    simp only [World.step, World.run, rejects]
  · have waits := sound.counted.queued
    have runs := sound.counted.running
    rw [← open_count]
    omega
  · rintro earlier later rfl
    exact history_drain pluginId earlier later

end Motrix.LaneAdmission
