import Mathlib.Data.List.Basic
import Motrix.Lib.Acyclic

/-!
# Plugin lanes and commands across plugins

Every entry of the host into a plugin waits for its predecessor in the lane of
that plugin.  A running entry may call a command of another plugin, which is an
entry of its own with the call chain it inherits.
-/

namespace Motrix.PluginLane

/-! ## The declared commands -/

structure PublicCommand where
  id : String
  operation : Bool
  isPublic : Bool

structure PluginManifest where
  invokesCommands : List String
  commands : List PublicCommand

abbrev PluginRegistry := String → Option PluginManifest

/-- A command id is the id of its plugin, of two parts, and a name. -/
def parseCalleeId (commandId : String) : Option String :=
  match commandId.toList.splitOn '.' with
  | publisher :: plugin :: _ :: _ =>
      some (String.ofList (publisher ++ '.' :: plugin))
  | _ => none

def CHAIN_MAX_DEPTH : Nat := 8

/-! ## Lanes -/

structure PluginCallChain where
  id : String
  plugins : List String
  deriving DecidableEq

inductive EntryState where
  | queued
  | running
  | settled
  deriving DecidableEq

/-- An entry of a lane, with the entry that awaits it and the task whose depth
it counts for. -/
structure LaneEntry where
  plugin : String
  chain : PluginCallChain
  admittedEpoch : Nat
  previous : Option Nat
  caller : Option (Nat × String) := none
  state : EntryState := .queued
  deriving DecidableEq

structure Lane where
  accepting : Bool := true
  epoch : Nat := 0
  tail : Option Nat := none

/-- A call that awaits the activation of its callee. -/
structure PendingCall where
  caller : Nat
  taskId : String
  callee : String
  chain : PluginCallChain

/-- What the other safeguards say to a call. -/
structure CallGates where
  calleeEnabled : Bool := true
  callerBlocked : Bool := false
  withinRate : Bool := true
  argsFit : Bool := true
  argsValid : Bool := true

structure PluginHost where
  lanes : String → Lane := fun _ => {}
  entries : Nat → Option LaneEntry := fun _ => none
  admitted : Nat := 0
  pending : List PendingCall := []
  depths : String → Nat := fun _ => 0

namespace PluginHost

def setEntry (host : PluginHost) (id : Nat) (entry : LaneEntry) :
    PluginHost :=
  { host with
    entries := fun other =>
      if other = id then some entry else host.entries other }

def setLane (host : PluginHost) (plugin : String) (lane : Lane) :
    PluginHost :=
  { host with
    lanes := fun other => if other = plugin then lane else host.lanes other }

def enter (host : PluginHost) (taskId : String) : PluginHost :=
  { host with
    depths := fun other =>
      if other = taskId then host.depths taskId + 1 else host.depths other }

def exit (host : PluginHost) (taskId : String) : PluginHost :=
  { host with
    depths := fun other =>
      if other = taskId then host.depths taskId - 1 else host.depths other }

/-- A call is over for the entry that made it. -/
def returnTo (host : PluginHost) : Option (Nat × String) → PluginHost
  | none => host
  | some (_, taskId) => host.exit taskId

/-- `PluginLane.run`; `fresh` names the chain of an entry that inherits
none. -/
def runLane (host : PluginHost) (plugin fresh : String)
    (inherited : Option PluginCallChain) (caller : Option (Nat × String)) :
    PluginHost :=
  let lane := host.lanes plugin
  if lane.accepting = false then
    host.returnTo caller
  else if plugin ∈ (inherited.map (·.plugins)).getD [] then
    host.returnTo caller
  else
    let entry : LaneEntry :=
      { plugin := plugin
        chain :=
          { id := (inherited.map (·.id)).getD fresh
            plugins := (inherited.map (·.plugins)).getD [] ++ [plugin] }
        admittedEpoch := lane.epoch
        previous := lane.tail
        caller := caller }
    { (host.setEntry host.admitted entry).setLane plugin
        { lane with tail := some host.admitted } with
      admitted := host.admitted + 1 }

def isSettled (host : PluginHost) (id : Nat) : Bool :=
  match host.entries id with
  | none => false
  | some entry => entry.state == .settled

/-- The predecessor of an entry has settled. -/
def isNext (host : PluginHost) (entry : LaneEntry) : Bool :=
  match entry.previous with
  | none => true
  | some previous => host.isSettled previous

def settle (host : PluginHost) (id : Nat) (entry : LaneEntry) :
    PluginHost :=
  (host.setEntry id { entry with state := .settled }).returnTo entry.caller

def start (host : PluginHost) (id : Nat) (entry : LaneEntry)
    (aborted : Bool) : PluginHost :=
  if entry.admittedEpoch ≠ (host.lanes entry.plugin).epoch ∨
      aborted = true then
    host.settle id entry
  else
    host.setEntry id { entry with state := .running }

/-- An entry awaits another one, or an activation. -/
def awaitsEntry (host : PluginHost) (id other : Nat) : Bool :=
  match host.entries other with
  | none => false
  | some entry => entry.caller.map Prod.fst == some id &&
      entry.state != .settled

def awaitsNothing (host : PluginHost) (id : Nat) : Bool :=
  (List.range host.admitted).all (fun other => !host.awaitsEntry id other) &&
    host.pending.all fun call => call.caller != id

/-! ## Calls across plugins -/

/-- The safeguards, in the order in which they are asked. -/
def authorize (registry : PluginRegistry) (callerId commandId callee : String)
    (depth : Nat) (gates : CallGates) : Except String Unit :=
  if depth > CHAIN_MAX_DEPTH then
    .error "plugin.command.chain_too_deep"
  else
    match registry callerId with
    | none => .error "plugin.command.access_denied"
    | some caller =>
        if commandId ∉ caller.invokesCommands then
          .error "plugin.command.access_denied"
        else if (registry callee).isNone ∨ gates.calleeEnabled = false then
          .error "plugin.command.not_available"
        else
          let commands :=
            ((registry callee).map (·.commands)).getD []
          match commands.find? (·.id == commandId) with
          | none => .error "plugin.command.not_public"
          | some command =>
              if command.operation then
                .error "plugin.command.access_denied"
              else if command.isPublic = false then
                .error "plugin.command.not_public"
              else if gates.callerBlocked then
                .error "plugin.command.caller_throttled"
              else if gates.withinRate = false then
                .error "plugin.command.rate_limited"
              else if gates.argsFit = false then
                .error "plugin.command.args_too_large"
              else if gates.argsValid = false then
                .error "plugin.command.args_invalid"
              else
                .ok ()

/-- `FullCrossPluginInvoker.execute` up to its first await, called by a running
entry with its chain. -/
def execute (registry : PluginRegistry) (host : PluginHost) (caller : Nat)
    (callerId : String) (chain : PluginCallChain) (commandId taskId : String)
    (gates : CallGates) (active : Bool) : PluginHost :=
  match parseCalleeId commandId with
  | none => host
  | some callee =>
      if callee ∈ chain.plugins then
        host
      else
        let entered := host.enter taskId
        match authorize registry callerId commandId callee
            (entered.depths taskId) gates with
        | .error _ => entered.exit taskId
        | .ok () =>
            if active then
              entered.runLane callee taskId (some chain)
                (some (caller, taskId))
            else
              { entered with
                pending := entered.pending ++
                  [{ caller := caller
                     taskId := taskId
                     callee := callee
                     chain := chain }] }

/-- The activation of a callee succeeds or fails. -/
def activated (host : PluginHost) (index : Nat) (succeeds : Bool) :
    PluginHost :=
  match host.pending[index]? with
  | none => host
  | some call =>
      let resumed := { host with pending := host.pending.eraseIdx index }
      if succeeds then
        resumed.runLane call.callee call.taskId (some call.chain)
          (some (call.caller, call.taskId))
      else
        resumed.exit call.taskId

end PluginHost

/-! ## Runs -/

inductive LaneEvent where
  | hostEntry (plugin chainId : String)
  | start (id : Nat) (aborted : Bool)
  | execute (id : Nat) (commandId taskId : String) (gates : CallGates)
      (active : Bool)
  | activated (index : Nat) (succeeds : Bool)
  /-- A running entry that awaits nothing returns. -/
  | finish (id : Nat)
  /-- A running entry is abandoned, whatever it awaits. -/
  | timeout (id : Nat)
  | close (plugin : String)
  | reopen (plugin : String)
  | cancelQueued (plugin : String)

namespace PluginHost

def apply (registry : PluginRegistry) (host : PluginHost) :
    LaneEvent → PluginHost
  | .hostEntry plugin chainId => host.runLane plugin chainId none none
  | .start id aborted =>
      match host.entries id with
      | none => host
      | some entry =>
          if entry.state = .queued ∧ host.isNext entry = true then
            host.start id entry aborted
          else
            host
  | .execute id commandId taskId gates active =>
      match host.entries id with
      | none => host
      | some entry =>
          if entry.state = .running then
            host.execute registry id entry.plugin entry.chain commandId
              taskId gates active
          else
            host
  | .activated index succeeds => host.activated index succeeds
  | .finish id =>
      match host.entries id with
      | none => host
      | some entry =>
          if entry.state = .running ∧ host.awaitsNothing id = true then
            host.settle id entry
          else
            host
  | .timeout id =>
      match host.entries id with
      | none => host
      | some entry =>
          if entry.state = .running then host.settle id entry else host
  | .close plugin =>
      host.setLane plugin { host.lanes plugin with accepting := false }
  | .reopen plugin =>
      host.setLane plugin { host.lanes plugin with accepting := true }
  | .cancelQueued plugin =>
      host.setLane plugin
        { host.lanes plugin with epoch := (host.lanes plugin).epoch + 1 }

def run (registry : PluginRegistry) (host : PluginHost)
    (events : List LaneEvent) : PluginHost :=
  events.foldl (apply registry) host

end PluginHost

end Motrix.PluginLane

/-!
# Waiting between plugin lanes

At most one entry runs in a lane.  The lanes never wait for each other in a
circle, and some running entry can always go on, exactly when the declared
commands do not lead from a plugin back to itself.
-/

namespace Motrix.PluginLane

open Motrix.Lib (Acyclic)

/-! ## The property -/

/-- A plugin may call a command of another one. -/
def Edge (registry : PluginRegistry) (caller callee : String) : Prop :=
  caller ≠ callee ∧ ∃ commandId manifest calleeManifest command,
    registry caller = some manifest ∧
    commandId ∈ manifest.invokesCommands ∧
    parseCalleeId commandId = some callee ∧
    registry callee = some calleeManifest ∧
    calleeManifest.commands.find? (·.id == commandId) = some command ∧
    command.operation = false ∧ command.isPublic = true

namespace PluginHost

/-- The running entry of a lane awaits an entry queued on another one. -/
def WaitsFor (host : PluginHost) (first second : String) : Prop :=
  ∃ id entry other queued taskId, host.entries id = some entry ∧
    entry.plugin = first ∧ entry.state = .running ∧
    host.entries other = some queued ∧ queued.plugin = second ∧
    queued.state = .queued ∧ queued.caller = some (id, taskId)

/-- Some running entry awaits no entry, or the next entry of a lane can
start. -/
def CanProceed (host : PluginHost) : Prop :=
  (∃ id entry, host.entries id = some entry ∧ entry.state = .running ∧
    ∀ other, host.awaitsEntry id other = false) ∨
  ∃ id entry, host.entries id = some entry ∧ entry.state = .queued ∧
    host.isNext entry = true

structure Safe (host : PluginHost) : Prop where
  single : ∀ first second entry other,
    host.entries first = some entry → host.entries second = some other →
    entry.plugin = other.plugin → entry.state = .running →
    other.state = .running → first = second
  acyclic : Acyclic host.WaitsFor
  proceeds : ∀ id entry, host.entries id = some entry →
    entry.state = .running → host.CanProceed

end PluginHost

/-! ## The invariant -/

structure View where
  lanes : String → Lane
  entries : Nat → Option LaneEntry
  admitted : Nat
  pending : List PendingCall

def PluginHost.view (host : PluginHost) : View where
  lanes := host.lanes
  entries := host.entries
  admitted := host.admitted
  pending := host.pending

/-- Every entry on the lane is in front of `bound`. -/
def View.Within (view : View) (plugin : String) (tail : Option Nat)
    (bound : Nat) : Prop :=
  ∀ id entry, view.entries id = some entry → entry.plugin = plugin →
    id < bound → ∃ last, tail = some last ∧ id ≤ last

structure Sound (registry : PluginRegistry) (view : View) : Prop where
  bounded : ∀ id entry, view.entries id = some entry → id < view.admitted
  own : ∀ id entry, view.entries id = some entry →
    entry.plugin ∈ entry.chain.plugins
  tails : ∀ plugin last, (view.lanes plugin).tail = some last →
    ∃ entry, view.entries last = some entry ∧ entry.plugin = plugin
  latest : ∀ plugin,
    view.Within plugin (view.lanes plugin).tail view.admitted
  linked : ∀ id entry previous, view.entries id = some entry →
    entry.previous = some previous → previous < id ∧
      ∃ other, view.entries previous = some other ∧
        other.plugin = entry.plugin
  adjacent : ∀ id entry, view.entries id = some entry →
    view.Within entry.plugin entry.previous id
  ordered : ∀ earlier later entry other,
    view.entries earlier = some entry → view.entries later = some other →
    entry.plugin = other.plugin → earlier < later →
    other.state ≠ .queued → entry.state = .settled
  callers : ∀ id entry caller taskId, view.entries id = some entry →
    entry.caller = some (caller, taskId) →
    ∃ other, view.entries caller = some other ∧
      Edge registry other.plugin entry.plugin
  calls : ∀ call ∈ view.pending, ∃ other,
    view.entries call.caller = some other ∧
      Edge registry other.plugin call.callee

variable {registry : PluginRegistry} {view : View}

/-! ## Entries change their state -/

def View.restate (view : View) (id : Nat) (entry : LaneEntry)
    (state : EntryState) : View :=
  { view with
    entries := fun other =>
      if other = id then some { entry with state := state }
      else view.entries other }

/-- Up to its state every entry is what it was. -/
theorem restate_back {id other : Nat} {entry found : LaneEntry}
    {state : EntryState} (here : view.entries id = some entry)
    (inside : (view.restate id entry state).entries other = some found) :
    ∃ old, view.entries other = some old ∧
      found = { old with state := found.state } ∧
      ((other = id ∧ found.state = state) ∨
        (other ≠ id ∧ found.state = old.state)) := by
  have inside' : (if other = id then some { entry with state := state }
    else view.entries other) = some found := inside
  split at inside'
  · rename_i same
    cases inside'
    exact ⟨entry, same ▸ here, rfl, Or.inl ⟨same, rfl⟩⟩
  · rename_i different
    exact ⟨found, inside', rfl, Or.inr ⟨different, rfl⟩⟩

theorem restate_forth {id other : Nat} {entry old : LaneEntry}
    {state : EntryState} (here : view.entries id = some entry)
    (inside : view.entries other = some old) :
    ∃ found, (view.restate id entry state).entries other = some found ∧
      found = { old with state := found.state } := by
  by_cases same : other = id
  · subst same
    cases here.symm.trans inside
    exact ⟨{ entry with state := state }, if_pos rfl, rfl⟩
  · exact ⟨old, (if_neg same).trans inside, rfl⟩

/-- An entry leaves the queue once everything in front of it has settled, and
settles once and for all. -/
theorem Sound.restate (sound : Sound registry view) {id : Nat}
    {entry : LaneEntry} {state : EntryState}
    (here : view.entries id = some entry)
    (settles : state = .settled ∨ entry.state = .queued)
    (front : ∀ earlier other, view.entries earlier = some other →
      other.plugin = entry.plugin → earlier < id →
      other.state = .settled) :
    Sound registry (view.restate id entry state) := by
  constructor
  · intro other found inside
    obtain ⟨old, was, _, _⟩ := restate_back here inside
    exact sound.bounded other old was
  · intro other found inside
    obtain ⟨old, was, same, _⟩ := restate_back here inside
    rw [same]
    exact sound.own other old was
  · intro plugin last tail
    obtain ⟨old, was, named⟩ := sound.tails plugin last tail
    obtain ⟨found, inside, same⟩ := restate_forth here was
    refine ⟨found, inside, ?_⟩
    rw [same]
    exact named
  · intro plugin other found inside named bound
    obtain ⟨old, was, same, _⟩ := restate_back here inside
    rw [same] at named
    exact sound.latest plugin other old was named bound
  · intro other found previous inside link
    obtain ⟨old, was, same, _⟩ := restate_back here inside
    rw [same] at link
    obtain ⟨before, older, there, named⟩ :=
      sound.linked other old previous was link
    obtain ⟨now, isThere, equal⟩ := restate_forth here there
    refine ⟨before, now, isThere, ?_⟩
    rw [same, equal]
    exact named
  · intro other found inside before older there named bound
    obtain ⟨old, was, same, _⟩ := restate_back here inside
    obtain ⟨first, wasThere, equal, _⟩ := restate_back here there
    rw [same] at named ⊢
    rw [equal] at named
    exact sound.adjacent other old was before first wasThere named bound
  · intro earlier later found other inside there named before started
    obtain ⟨old, was, same, early⟩ := restate_back here inside
    obtain ⟨second, wasThere, equal, late⟩ := restate_back here there
    have named' : old.plugin = second.plugin := by
      rw [same, equal] at named
      exact named
    rcases early with ⟨atEarly, earlyState⟩ | ⟨notEarly, earlyState⟩
    · subst atEarly
      cases here.symm.trans was
      rcases late with ⟨atLate, _⟩ | ⟨_, lateState⟩
      · exact absurd before (by omega)
      · rw [lateState] at started
        have settled := sound.ordered earlier later entry second was wasThere
          named' before started
        rcases settles with settles | queued
        · rw [earlyState]
          exact settles
        · rw [queued] at settled
          cases settled
    · rw [earlyState]
      rcases late with ⟨atLate, _⟩ | ⟨_, lateState⟩
      · subst atLate
        cases here.symm.trans wasThere
        exact front earlier old was named' before
      · rw [lateState] at started
        exact sound.ordered earlier later old second was wasThere named'
          before started
  · intro other found caller taskId inside called
    obtain ⟨old, was, same, _⟩ := restate_back here inside
    rw [same] at called ⊢
    obtain ⟨first, wasThere, edge⟩ :=
      sound.callers other old caller taskId was called
    obtain ⟨now, isThere, equal⟩ := restate_forth here wasThere
    refine ⟨now, isThere, ?_⟩
    rw [equal]
    exact edge
  · intro call member
    obtain ⟨first, wasThere, edge⟩ := sound.calls call member
    obtain ⟨now, isThere, equal⟩ := restate_forth here wasThere
    refine ⟨now, isThere, ?_⟩
    rw [equal]
    exact edge

/-! ## Entries are admitted -/

def View.enlist (view : View) (lane : Lane) (entry : LaneEntry) : View :=
  { view with
    lanes := fun other =>
      if other = entry.plugin then
        { lane with tail := some view.admitted }
      else
        view.lanes other
    entries := fun other =>
      if other = view.admitted then some entry else view.entries other
    admitted := view.admitted + 1 }

theorem enlist_back {lane : Lane} {entry found : LaneEntry} {other : Nat}
    (inside : (view.enlist lane entry).entries other = some found) :
    (other = view.admitted ∧ found = entry) ∨
      (other ≠ view.admitted ∧ view.entries other = some found) := by
  have inside' : (if other = view.admitted then some entry
    else view.entries other) = some found := inside
  split at inside'
  · rename_i same
    cases inside'
    exact Or.inl ⟨same, rfl⟩
  · rename_i different
    exact Or.inr ⟨different, inside'⟩

theorem Sound.enlist_forth (sound : Sound registry view) {lane : Lane}
    {entry found : LaneEntry} {other : Nat}
    (inside : view.entries other = some found) :
    (view.enlist lane entry).entries other = some found := by
  have bound := sound.bounded other found inside
  exact (if_neg (Nat.ne_of_lt bound)).trans inside

theorem Sound.enlist (sound : Sound registry view) {lane : Lane}
    {entry : LaneEntry} (tail : lane.tail = (view.lanes entry.plugin).tail)
    (own : entry.plugin ∈ entry.chain.plugins)
    (previous : entry.previous = (view.lanes entry.plugin).tail)
    (queued : entry.state = .queued)
    (called : ∀ caller taskId, entry.caller = some (caller, taskId) →
      ∃ other, view.entries caller = some other ∧
        Edge registry other.plugin entry.plugin) :
    Sound registry (view.enlist lane entry) := by
  have newest : (view.enlist lane entry).entries view.admitted =
      some entry := if_pos rfl
  constructor
  · intro other found inside
    rcases enlist_back inside with ⟨same, _⟩ | ⟨_, old⟩
    · exact Nat.lt_succ_of_le (Nat.le_of_eq same)
    · exact Nat.lt_succ_of_lt (sound.bounded other found old)
  · intro other found inside
    rcases enlist_back inside with ⟨_, rfl⟩ | ⟨_, old⟩
    · exact own
    · exact sound.own other found old
  · intro plugin last ends
    have ends' : (if plugin = entry.plugin then
        { lane with tail := some view.admitted }
      else view.lanes plugin).tail = some last := ends
    split at ends'
    · rename_i same
      cases ends'
      exact ⟨entry, newest, same.symm⟩
    · obtain ⟨found, old, named⟩ := sound.tails plugin last ends'
      exact ⟨found, sound.enlist_forth old, named⟩
  · intro plugin other found inside named bound
    show ∃ last, (if plugin = entry.plugin then
        { lane with tail := some view.admitted }
      else view.lanes plugin).tail = some last ∧ other ≤ last
    split
    · exact ⟨view.admitted, rfl, Nat.le_of_lt_succ bound⟩
    · rename_i apart
      rcases enlist_back inside with ⟨_, rfl⟩ | ⟨_, old⟩
      · exact absurd named.symm apart
      · exact sound.latest plugin other found old named
          (sound.bounded other found old)
  · intro other found last inside link
    rcases enlist_back inside with ⟨same, rfl⟩ | ⟨_, old⟩
    · rw [previous] at link
      obtain ⟨before, there, named⟩ := sound.tails _ last link
      refine ⟨?_, before, sound.enlist_forth there, named⟩
      rw [same]
      exact sound.bounded last before there
    · obtain ⟨before, first, there, named⟩ :=
        sound.linked other found last old link
      exact ⟨before, first, sound.enlist_forth there, named⟩
  · intro other found inside before first there named bound
    rcases enlist_back there with ⟨same, _⟩ | ⟨_, oldFirst⟩
    · rcases enlist_back inside with ⟨same', _⟩ | ⟨_, old⟩
      · omega
      · have limit := sound.bounded other found old
        omega
    · rcases enlist_back inside with ⟨same, rfl⟩ | ⟨_, old⟩
      · rw [previous]
        exact sound.latest _ before first oldFirst named
          (sound.bounded before first oldFirst)
      · exact sound.adjacent other found old before first oldFirst named bound
  · intro earlier later first second there inside named before started
    rcases enlist_back inside with ⟨_, rfl⟩ | ⟨_, old⟩
    · exact absurd queued started
    · rcases enlist_back there with ⟨same, _⟩ | ⟨_, oldFirst⟩
      · have limit := sound.bounded later second old
        omega
      · exact sound.ordered earlier later first second oldFirst old named
          before started
  · intro other found caller taskId inside calls
    rcases enlist_back inside with ⟨_, rfl⟩ | ⟨_, old⟩
    · obtain ⟨first, there, edge⟩ := called caller taskId calls
      exact ⟨first, sound.enlist_forth there, edge⟩
    · obtain ⟨first, there, edge⟩ :=
        sound.callers other found caller taskId old calls
      exact ⟨first, sound.enlist_forth there, edge⟩
  · intro call member
    obtain ⟨first, there, edge⟩ := sound.calls call member
    exact ⟨first, sound.enlist_forth there, edge⟩

namespace PluginHost

variable {host : PluginHost}

def SoundNow (registry : PluginRegistry) (host : PluginHost) : Prop :=
  Sound registry host.view

theorem returnTo_view {caller : Option (Nat × String)} :
    (host.returnTo caller).view = host.view := by
  cases caller with
  | none => rfl
  | some call => rfl

theorem returnTo_sound (sound : SoundNow registry host)
    (caller : Option (Nat × String)) :
    SoundNow registry (host.returnTo caller) := by
  unfold SoundNow
  rw [returnTo_view]
  exact sound

theorem runLane_sound (sound : SoundNow registry host)
    {plugin fresh : String} {inherited : Option PluginCallChain}
    {caller : Option (Nat × String)}
    (called : ∀ id taskId, caller = some (id, taskId) →
      ∃ other, host.entries id = some other ∧
        Edge registry other.plugin plugin) :
    SoundNow registry (host.runLane plugin fresh inherited caller) := by
  unfold runLane
  dsimp only
  split
  · exact returnTo_sound sound caller
  · split
    · exact returnTo_sound sound caller
    · have enlisted : Sound registry (host.view.enlist (host.lanes plugin)
          { plugin := plugin
            chain :=
              { id := (inherited.map (·.id)).getD fresh
                plugins := (inherited.map (·.plugins)).getD [] ++ [plugin] }
            admittedEpoch := (host.lanes plugin).epoch
            previous := (host.lanes plugin).tail
            caller := caller }) := by
        apply Sound.enlist sound rfl
        · exact List.mem_append.mpr (Or.inr List.mem_cons_self)
        · rfl
        · rfl
        · exact called
      exact enlisted

theorem settle_sound (sound : SoundNow registry host) {id : Nat}
    {entry : LaneEntry} (found : host.entries id = some entry)
    (front : ∀ earlier other, host.entries earlier = some other →
      other.plugin = entry.plugin → earlier < id →
      other.state = .settled) :
    SoundNow registry (host.settle id entry) := by
  have restated : SoundNow registry
      (host.setEntry id { entry with state := .settled }) :=
    Sound.restate sound found (Or.inl rfl) front
  exact returnTo_sound restated entry.caller

/-- Everything in front of an entry that has started has settled. -/
theorem front_of_started (sound : SoundNow registry host) {id : Nat}
    {entry : LaneEntry} (found : host.entries id = some entry)
    (started : entry.state ≠ .queued) :
    ∀ earlier other, host.entries earlier = some other →
      other.plugin = entry.plugin → earlier < id →
      other.state = .settled :=
  fun earlier other there named before =>
    sound.ordered earlier id other entry there found named before started

/-- Everything in front of the next entry of a lane has settled. -/
theorem front_of_next (sound : SoundNow registry host) {id : Nat}
    {entry : LaneEntry} (found : host.entries id = some entry)
    (next : host.isNext entry = true) :
    ∀ earlier other, host.entries earlier = some other →
      other.plugin = entry.plugin → earlier < id →
      other.state = .settled := by
  intro earlier other there named before
  obtain ⟨last, previous, reach⟩ :=
    sound.adjacent id entry found earlier other there named before
  have settled : host.isSettled last = true := by
    unfold isNext at next
    rw [previous] at next
    exact next
  obtain ⟨_, newest, isLast, sameLane⟩ :=
    sound.linked id entry last found previous
  have isLast' : host.entries last = some newest := isLast
  have state : newest.state = .settled := by
    unfold isSettled at settled
    rw [isLast'] at settled
    exact beq_iff_eq.mp settled
  rcases Nat.lt_or_eq_of_le reach with less | same
  · apply sound.ordered earlier last other newest there isLast _ less
    · rw [state]
      exact EntryState.noConfusion
    · exact named.trans sameLane.symm
  · subst same
    cases there.symm.trans isLast'
    exact state

/-! ## The other steps -/

theorem relane_sound (sound : SoundNow registry host) (plugin : String)
    {lane : Lane} (tail : lane.tail = (host.lanes plugin).tail) :
    SoundNow registry (host.setLane plugin lane) := by
  have tails : ∀ other, ((host.setLane plugin lane).lanes other).tail =
      (host.lanes other).tail := by
    intro other
    show (if other = plugin then lane else host.lanes other).tail = _
    split
    · rename_i same
      rw [same, tail]
    · rfl
  constructor
  · exact sound.bounded
  · exact sound.own
  · intro other last ends
    exact sound.tails other last ((tails other).symm.trans ends)
  · intro other id entry inside named bound
    obtain ⟨last, ends, reach⟩ := sound.latest other id entry inside named bound
    exact ⟨last, (tails other).trans ends, reach⟩
  · exact sound.linked
  · exact sound.adjacent
  · exact sound.ordered
  · exact sound.callers
  · exact sound.calls

theorem repend_sound (sound : SoundNow registry host)
    {pending : List PendingCall}
    (called : ∀ call ∈ pending, ∃ other,
      host.entries call.caller = some other ∧
        Edge registry other.plugin call.callee) :
    SoundNow registry { host with pending := pending } where
  bounded := sound.bounded
  own := sound.own
  tails := sound.tails
  latest := sound.latest
  linked := sound.linked
  adjacent := sound.adjacent
  ordered := sound.ordered
  callers := sound.callers
  calls := called

theorem start_sound (sound : SoundNow registry host) {id : Nat}
    {entry : LaneEntry} (found : host.entries id = some entry)
    (queued : entry.state = .queued) (next : host.isNext entry = true)
    (aborted : Bool) : SoundNow registry (host.start id entry aborted) := by
  have front := front_of_next sound found next
  unfold start
  split
  · exact settle_sound sound found front
  · have restated : SoundNow registry
        (host.setEntry id { entry with state := .running }) :=
      Sound.restate sound found (Or.inr queued) front
    exact restated

/-- What passes the safeguards is a declared call of a public command. -/
theorem edge_of_authorize {callerId commandId callee : String}
    {depth : Nat} {gates : CallGates} (different : callerId ≠ callee)
    (parsed : parseCalleeId commandId = some callee)
    (allowed : authorize registry callerId commandId callee depth gates =
      .ok ()) : Edge registry callerId callee := by
  unfold authorize at allowed
  split at allowed
  · cases allowed
  · split at allowed
    · cases allowed
    · rename_i manifest isCaller
      split at allowed
      · cases allowed
      · rename_i declared
        split at allowed
        · cases allowed
        · rename_i available
          have present : registry callee ≠ none := by
            intro absent
            rw [absent] at available
            exact available (Or.inl rfl)
          obtain ⟨calleeManifest, isCallee⟩ := Option.ne_none_iff_exists'.mp present
          dsimp only at allowed
          split at allowed
          · cases allowed
          · rename_i command isCommand
            have isCommand' : calleeManifest.commands.find?
                (·.id == commandId) = some command := by
              rw [isCallee] at isCommand
              exact isCommand
            split at allowed
            · cases allowed
            · rename_i operation
              split at allowed
              · cases allowed
              · rename_i isPublic
                exact ⟨different, commandId, manifest, calleeManifest, command,
                  isCaller, Decidable.not_not.mp declared, parsed, isCallee,
                  isCommand', Bool.eq_false_iff.mpr operation,
                  Bool.not_eq_false _ ▸ isPublic⟩

theorem execute_sound (sound : SoundNow registry host) {caller : Nat}
    {entry : LaneEntry} (found : host.entries caller = some entry)
    (commandId taskId : String) (gates : CallGates) (active : Bool) :
    SoundNow registry (host.execute registry caller entry.plugin entry.chain
      commandId taskId gates active) := by
  unfold execute
  split
  · exact sound
  · rename_i callee parsed
    split
    · exact sound
    · rename_i outside
      have different : entry.plugin ≠ callee := by
        intro same
        rw [← same] at outside
        exact outside (sound.own caller entry found)
      have entered : SoundNow registry (host.enter taskId) := sound
      dsimp only
      split
      · exact sound
      · rename_i allowed
        have edge := edge_of_authorize different parsed allowed
        split
        · apply runLane_sound entered
          intro id task called
          cases called
          exact ⟨entry, found, edge⟩
        · apply repend_sound entered
          intro call member
          rcases List.mem_append.mp member with old | new
          · exact sound.calls call old
          · cases List.mem_singleton.mp new
            exact ⟨entry, found, edge⟩

theorem activated_sound (sound : SoundNow registry host) (index : Nat)
    (succeeds : Bool) :
    SoundNow registry (host.activated index succeeds) := by
  unfold activated
  split
  · exact sound
  · rename_i call isCall
    have called := sound.calls call (List.mem_of_getElem? isCall)
    have resumed : SoundNow registry
        { host with pending := host.pending.eraseIdx index } := by
      apply repend_sound sound
      intro other member
      exact sound.calls other (List.mem_of_mem_eraseIdx member)
    dsimp only
    split
    · apply runLane_sound resumed
      intro id task same
      cases same
      exact called
    · exact resumed

theorem apply_sound (sound : SoundNow registry host) (event : LaneEvent) :
    SoundNow registry (host.apply registry event) := by
  cases event with
  | hostEntry plugin chainId =>
      apply runLane_sound sound
      intro id task called
      cases called
  | start id aborted =>
      unfold apply
      dsimp only
      split
      · exact sound
      · rename_i entry found
        split
        · rename_i ready
          exact start_sound sound found ready.1 ready.2 aborted
        · exact sound
  | execute id commandId taskId gates active =>
      unfold apply
      dsimp only
      split
      · exact sound
      · rename_i entry found
        split
        · exact execute_sound sound found commandId taskId gates active
        · exact sound
  | activated index succeeds => exact activated_sound sound index succeeds
  | finish id =>
      unfold apply
      dsimp only
      split
      · exact sound
      · rename_i entry found
        split
        · rename_i ready
          apply settle_sound sound found
          apply front_of_started sound found
          rw [ready.1]
          exact EntryState.noConfusion
        · exact sound
  | timeout id =>
      unfold apply
      dsimp only
      split
      · exact sound
      · rename_i entry found
        split
        · rename_i running
          apply settle_sound sound found
          apply front_of_started sound found
          rw [running]
          exact EntryState.noConfusion
        · exact sound
  | close plugin => exact relane_sound sound plugin rfl
  | reopen plugin => exact relane_sound sound plugin rfl
  | cancelQueued plugin => exact relane_sound sound plugin rfl

theorem initial_sound : SoundNow registry {} := by
  constructor
  · intro id entry found
    cases found
  · intro id entry found
    cases found
  · intro plugin last ends
    cases ends
  · intro plugin id entry found
    cases found
  · intro id entry previous found
    cases found
  · intro id entry found
    cases found
  · intro earlier later entry other found
    cases found
  · intro id entry caller taskId found
    cases found
  · intro call member
    cases member

theorem run_sound (sound : SoundNow registry host)
    (events : List LaneEvent) :
    SoundNow registry (host.run registry events) := by
  induction events generalizing host with
  | nil => exact sound
  | cons event rest induction => exact induction (apply_sound sound event)

end PluginHost

end Motrix.PluginLane
