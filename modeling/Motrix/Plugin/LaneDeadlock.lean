import Motrix.Plugin.LaneWaits

/-!
# Deadlock of plugin lanes

The chain of one entry of the host never enters a plugin twice, but two chains
do not know of each other.  Running entries therefore come to wait for each
other in a circle exactly when the declared commands lead from a plugin back to
itself.
-/

namespace Motrix.PluginLane

open Motrix.Lib (Acyclic exists_circuit)

namespace PluginHost

variable {registry : PluginRegistry} {host : PluginHost}

/-! ## Commands without a cycle -/

theorem awaitsEntry_iff {id other : Nat} :
    host.awaitsEntry id other = true ↔
      ∃ entry taskId, host.entries other = some entry ∧
        entry.caller = some (id, taskId) ∧ entry.state ≠ .settled := by
  unfold awaitsEntry
  cases found : host.entries other with
  | none => simp
  | some entry =>
      cases called : entry.caller with
      | none => simp [called]
      | some call => simp [called, Prod.ext_iff]

theorem edge_of_waitsFor (sound : SoundNow registry host)
    {first second : String} (waits : host.WaitsFor first second) :
    Edge registry first second := by
  obtain ⟨id, entry, other, queued, taskId, found, named, _, there, callee, _,
    called⟩ := waits
  obtain ⟨caller, isCaller, edge⟩ :=
    sound.callers other queued id taskId there called
  cases found.symm.trans isCaller
  rw [named, callee] at edge
  exact edge

theorem single_of_sound (sound : SoundNow registry host)
    {first second : Nat} {entry other : LaneEntry}
    (found : host.entries first = some entry)
    (there : host.entries second = some other)
    (named : entry.plugin = other.plugin) (running : entry.state = .running)
    (runs : other.state = .running) : first = second := by
  rcases Nat.lt_trichotomy first second with before | same | after
  · have settled := sound.ordered first second entry other found there named
      before (by rw [runs]; exact EntryState.noConfusion)
    rw [running] at settled
    cases settled
  · exact same
  · have settled := sound.ordered second first other entry there found
      named.symm after (by rw [running]; exact EntryState.noConfusion)
    rw [runs] at settled
    cases settled

/-- When no lane can start its next entry, an entry runs wherever one is
left. -/
theorem exists_running (sound : SoundNow registry host)
    (stuck : ∀ id entry, host.entries id = some entry →
      entry.state = .queued → host.isNext entry = false) (id : Nat) :
    ∀ entry, host.entries id = some entry → entry.state ≠ .settled →
      ∃ other running, host.entries other = some running ∧
        running.state = .running ∧ running.plugin = entry.plugin := by
  induction id using Nat.strong_induction_on with
  | _ id induction =>
      intro entry found unsettled
      cases state : entry.state with
      | running => exact ⟨id, entry, found, state, rfl⟩
      | settled => exact absurd state unsettled
      | queued =>
          have blocked := stuck id entry found state
          unfold isNext at blocked
          cases link : entry.previous with
          | none => simp [link] at blocked
          | some previous =>
              rw [link] at blocked
              obtain ⟨before, other, there, sameLane⟩ :=
                sound.linked id entry previous found link
              have there' : host.entries previous = some other := there
              have left : other.state ≠ .settled := by
                intro settled
                simp [isSettled, there', settled] at blocked
              rw [← sameLane]
              exact induction previous before other there left

/-- The plugins in whose lanes an entry runs. -/
def busy (host : PluginHost) : List String :=
  (List.range host.admitted).filterMap fun id =>
    match host.entries id with
    | none => none
    | some entry =>
        if entry.state = .running then some entry.plugin else none

theorem mem_busy (sound : SoundNow registry host) {plugin : String} :
    plugin ∈ host.busy ↔ ∃ id entry, host.entries id = some entry ∧
      entry.state = .running ∧ entry.plugin = plugin := by
  unfold busy
  rw [List.mem_filterMap]
  constructor
  · rintro ⟨id, _, chosen⟩
    cases found : host.entries id with
    | none => simp [found] at chosen
    | some entry =>
        simp only [found, Option.ite_none_right_eq_some,
          Option.some.injEq] at chosen
        exact ⟨id, entry, found, chosen⟩
  · rintro ⟨id, entry, found, running, named⟩
    refine ⟨id, List.mem_range.mpr (sound.bounded id entry found), ?_⟩
    simp [found, running, named]

theorem proceeds_of_acyclic (sound : SoundNow registry host)
    (acyclic : Acyclic (Edge registry)) {id : Nat} {entry : LaneEntry}
    (found : host.entries id = some entry) (running : entry.state = .running) :
    host.CanProceed := by
  by_contra stuck
  unfold CanProceed at stuck
  rw [not_or] at stuck
  obtain ⟨awaiting, waiting⟩ := stuck
  have blocked : ∀ other queued, host.entries other = some queued →
      queued.state = .queued → host.isNext queued = false := by
    intro other queued there state
    by_contra next
    exact waiting ⟨other, queued, there, state, Bool.not_eq_false _ ▸ next⟩
  have nonempty : host.busy ≠ [] :=
    List.ne_nil_of_mem ((mem_busy sound).mpr ⟨id, entry, found, running, rfl⟩)
  obtain ⟨plugin, member, sink⟩ := acyclic.exists_sink nonempty
  obtain ⟨last, runs, there, state, named⟩ := (mem_busy sound).mp member
  -- the entry that runs here awaits one in whose lane another entry runs
  have awaits : ∃ other, host.awaitsEntry last other = true := by
    by_contra free
    apply awaiting
    refine ⟨last, runs, there, state, ?_⟩
    intro other
    rw [← Bool.not_eq_true]
    exact fun awaits => free ⟨other, awaits⟩
  obtain ⟨other, awaits⟩ := awaits
  obtain ⟨called, taskId, isCalled, caller, unsettled⟩ :=
    awaitsEntry_iff.mp awaits
  obtain ⟨first, isFirst, edge⟩ :=
    sound.callers other called last taskId isCalled caller
  cases there.symm.trans isFirst
  rw [named] at edge
  obtain ⟨next, nextEntry, isNext, nextRuns, sameLane⟩ :=
    exists_running sound blocked other called isCalled unsettled
  have busyNext : called.plugin ∈ host.busy :=
    (mem_busy sound).mpr ⟨next, nextEntry, isNext, nextRuns, sameLane⟩
  exact sink called.plugin busyNext edge

theorem safe_of_acyclic (sound : SoundNow registry host)
    (acyclic : Acyclic (Edge registry)) : host.Safe where
  single _ _ _ _ found there named running runs :=
    single_of_sound sound found there named running runs
  acyclic := acyclic.mono fun _ _ waits => edge_of_waitsFor sound waits
  proceeds _ _ found running := proceeds_of_acyclic sound acyclic found running

/-! ## Commands with a cycle -/

/-- Every entry of the first host is one of the second. -/
def Extends (later host : PluginHost) : Prop :=
  ∀ id entry, host.entries id = some entry → later.entries id = some entry

/-- An entry of the host runs in the lane. -/
def Held (host : PluginHost) (plugin : String) : Prop :=
  ∃ id entry, host.entries id = some entry ∧ entry.plugin = plugin ∧
    entry.state = .running ∧ entry.chain.plugins = [plugin]

theorem Held.mono {later : PluginHost} {plugin : String}
    (held : host.Held plugin) (extended : later.Extends host) :
    later.Held plugin := by
  obtain ⟨id, entry, found, rest⟩ := held
  exact ⟨id, entry, extended id entry found, rest⟩

theorem WaitsFor.mono {later : PluginHost} {first second : String}
    (waits : host.WaitsFor first second) (extended : later.Extends host) :
    later.WaitsFor first second := by
  obtain ⟨id, entry, other, queued, taskId, found, named, running, there,
    rest⟩ := waits
  exact ⟨id, entry, other, queued, taskId, extended id entry found, named,
    running, extended other queued there, rest⟩

/-- The host once the lane has let an entry in. -/
def enlisted (host : PluginHost) (entry : LaneEntry) : PluginHost :=
  { (host.setEntry host.admitted entry).setLane entry.plugin
      { host.lanes entry.plugin with tail := some host.admitted } with
    admitted := host.admitted + 1 }

theorem runLane_enlisted {plugin fresh : String}
    {inherited : Option PluginCallChain} {caller : Option (Nat × String)}
    (accepting : (host.lanes plugin).accepting = true)
    (outside : plugin ∉ (inherited.map (·.plugins)).getD []) :
    host.runLane plugin fresh inherited caller =
      host.enlisted
        { plugin := plugin
          chain :=
            { id := (inherited.map (·.id)).getD fresh
              plugins := (inherited.map (·.plugins)).getD [] ++ [plugin] }
          admittedEpoch := (host.lanes plugin).epoch
          previous := (host.lanes plugin).tail
          caller := caller } := by
  unfold runLane
  dsimp only
  rw [if_neg (by rw [accepting]; exact Bool.noConfusion), if_neg outside]
  rfl

theorem enlisted_newest (entry : LaneEntry) :
    (host.enlisted entry).entries host.admitted = some entry :=
  if_pos rfl

theorem enlisted_extends (sound : SoundNow registry host)
    (entry : LaneEntry) : (host.enlisted entry).Extends host := by
  intro id found inside
  have bound := sound.bounded id found inside
  exact (if_neg (Nat.ne_of_lt bound)).trans inside

theorem enlisted_accepting (entry : LaneEntry)
    (accepting : ∀ plugin, (host.lanes plugin).accepting = true)
    (plugin : String) :
    ((host.enlisted entry).lanes plugin).accepting = true := by
  show (if plugin = entry.plugin then
      { host.lanes entry.plugin with tail := some host.admitted }
    else host.lanes plugin).accepting = true
  split
  · exact accepting entry.plugin
  · exact accepting plugin

theorem enlisted_tail {entry : LaneEntry} {plugin : String}
    (apart : plugin ≠ entry.plugin) :
    ((host.enlisted entry).lanes plugin).tail = (host.lanes plugin).tail :=
  congrArg Lane.tail (if_neg apart)

/-- One entry of the host runs in each of the lanes. -/
structure Opened (host : PluginHost) (plugins : List String) : Prop where
  accepting : ∀ plugin, (host.lanes plugin).accepting = true
  held : ∀ plugin ∈ plugins, host.Held plugin
  untouched : ∀ plugin, plugin ∉ plugins → (host.lanes plugin).tail = none
  idle : ∀ taskId, host.depths taskId = 0

theorem Opened.step {plugins : List String} (opened : host.Opened plugins)
    (sound : SoundNow registry host) {plugin : String}
    (outside : plugin ∉ plugins) :
    (host.run registry
      [.hostEntry plugin "", .start host.admitted false]).Opened
        (plugin :: plugins) := by
  let entry : LaneEntry :=
    { plugin := plugin
      chain :=
        { id := ""
          plugins := [plugin] }
      admittedEpoch := (host.lanes plugin).epoch
      previous := (host.lanes plugin).tail }
  let running : LaneEntry := { entry with state := .running }
  have entered : host.apply registry (.hostEntry plugin "") =
      host.enlisted entry :=
    runLane_enlisted (opened.accepting plugin) List.not_mem_nil
  have next : (host.enlisted entry).isNext entry = true := by
    unfold isNext
    rw [show entry.previous = none from opened.untouched plugin outside]
  have same : entry.admittedEpoch =
      ((host.enlisted entry).lanes entry.plugin).epoch := by
    show _ = (if entry.plugin = entry.plugin then
        { host.lanes entry.plugin with tail := some host.admitted }
      else host.lanes entry.plugin).epoch
    rw [if_pos rfl]
  have started : host.run registry
      [.hostEntry plugin "", .start host.admitted false] =
        (host.enlisted entry).setEntry host.admitted running := by
    show ((host.apply registry (.hostEntry plugin "")).apply registry
      (.start host.admitted false)) = _
    rw [entered]
    unfold apply
    dsimp only
    rw [enlisted_newest]
    dsimp only
    rw [if_pos ⟨rfl, next⟩]
    unfold start
    rw [if_neg]
    rintro (differs | aborted)
    · exact differs same
    · cases aborted
  have extended : ((host.enlisted entry).setEntry host.admitted
      running).Extends host := by
    intro id found inside
    have bound := sound.bounded id found inside
    exact (if_neg (Nat.ne_of_lt bound)).trans
      (enlisted_extends sound entry id found inside)
  rw [started]
  constructor
  · exact enlisted_accepting entry opened.accepting
  · intro other member
    rcases List.mem_cons.mp member with same | old
    · rw [same]
      exact ⟨host.admitted, running, if_pos rfl, rfl, rfl, rfl⟩
    · exact (opened.held other old).mono extended
  · intro other apart
    have different : other ≠ entry.plugin :=
      fun same => apart (same ▸ List.mem_cons_self)
    exact (enlisted_tail different).trans
      (opened.untouched other fun old => apart (List.mem_cons_of_mem _ old))
  · exact opened.idle

theorem run_append (events later : List LaneEvent) :
    host.run registry (events ++ later) =
      (host.run registry events).run registry later :=
  List.foldl_append

theorem exists_opened (registry : PluginRegistry) {plugins : List String}
    (distinct : plugins.Nodup) :
    ∃ events, (run registry {} events).Opened plugins := by
  induction plugins with
  | nil =>
      refine ⟨[], fun _ => rfl, ?_, fun _ _ => rfl, fun _ => rfl⟩
      intro plugin member
      cases member
  | cons plugin rest induction =>
      obtain ⟨outside, distinct⟩ := List.nodup_cons.mp distinct
      obtain ⟨events, opened⟩ := induction distinct
      refine ⟨events ++ [.hostEntry plugin "",
        .start (run registry {} events).admitted false], ?_⟩
      rw [run_append]
      exact opened.step (run_sound initial_sound events) outside

/-- The entries of the callers among them wait for another of the lanes. -/
structure Crossed (host : PluginHost) (plugins callers : List String) :
    Prop where
  accepting : ∀ plugin, (host.lanes plugin).accepting = true
  held : ∀ plugin ∈ plugins, host.Held plugin
  idle : ∀ taskId, taskId ∉ callers → host.depths taskId = 0
  waits : ∀ plugin ∈ callers, ∃ next ∈ plugins, host.WaitsFor plugin next

/-- Nothing but the depth of its chain is held against a declared call. -/
theorem authorize_of_declared {callerId commandId callee : String}
    {manifest calleeManifest : PluginManifest} {command : PublicCommand}
    {depth : Nat} (shallow : depth ≤ CHAIN_MAX_DEPTH)
    (isCaller : registry callerId = some manifest)
    (declared : commandId ∈ manifest.invokesCommands)
    (isCallee : registry callee = some calleeManifest)
    (isCommand : calleeManifest.commands.find? (·.id == commandId) =
      some command)
    (entry : command.operation = false) (isPublic : command.isPublic = true) :
    authorize registry callerId commandId callee depth {} = .ok () := by
  unfold authorize
  rw [if_neg (Nat.not_lt.mpr shallow), isCaller]
  simp [declared, isCallee, isCommand, entry, isPublic]

theorem Crossed.step {plugins callers : List String}
    (crossed : host.Crossed plugins callers)
    (sound : SoundNow registry host) {plugin callee : String}
    (inside : plugin ∈ plugins) (outside : plugin ∉ callers)
    (among : callee ∈ plugins) (edge : Edge registry plugin callee) :
    ∃ event, (host.apply registry event).Crossed plugins
      (plugin :: callers) := by
  obtain ⟨different, commandId, manifest, calleeManifest, command, isCaller,
    declared, parsed, isCallee, isCommand, entries, isPublic⟩ := edge
  obtain ⟨id, entry, found, named, running, chain⟩ :=
    crossed.held plugin inside
  have apart : callee ∉ entry.chain.plugins := by
    rw [chain]
    exact fun same => different (List.mem_singleton.mp same).symm
  have depth : (host.enter plugin).depths plugin = 1 := by
    show (if plugin = plugin then host.depths plugin + 1
      else host.depths plugin) = 1
    rw [if_pos rfl, crossed.idle plugin outside]
  have allowed : authorize registry entry.plugin commandId callee
      ((host.enter plugin).depths plugin) {} = .ok () := by
    rw [depth, named]
    exact authorize_of_declared (by decide) isCaller declared isCallee
      isCommand entries isPublic
  have entered : SoundNow registry (host.enter plugin) := sound
  let queued : LaneEntry :=
    { plugin := callee
      chain :=
        { id := entry.chain.id
          plugins := entry.chain.plugins ++ [callee] }
      admittedEpoch := ((host.enter plugin).lanes callee).epoch
      previous := ((host.enter plugin).lanes callee).tail
      caller := some (id, plugin) }
  have called : host.apply registry
      (.execute id commandId plugin {} true) =
        (host.enter plugin).enlisted queued := by
    unfold apply
    dsimp only
    rw [found]
    dsimp only
    rw [if_pos running]
    unfold execute
    rw [parsed]
    dsimp only
    rw [if_neg apart, allowed]
    exact runLane_enlisted (crossed.accepting callee) apart
  have extended : ((host.enter plugin).enlisted queued).Extends host :=
    enlisted_extends entered queued
  refine ⟨.execute id commandId plugin {} true, ?_⟩
  rw [called]
  constructor
  · exact enlisted_accepting queued crossed.accepting
  · exact fun other member => (crossed.held other member).mono extended
  · intro taskId missing
    have other : taskId ≠ plugin :=
      fun same => missing (same ▸ List.mem_cons_self)
    exact (if_neg other).trans
      (crossed.idle taskId fun old => missing (List.mem_cons_of_mem _ old))
  · intro other member
    rcases List.mem_cons.mp member with rfl | old
    · have newest : ((host.enter other).enlisted queued).entries
          host.admitted = some queued := enlisted_newest queued
      exact ⟨callee, among, id, entry, host.admitted, queued, other,
        extended id entry found, named, running, newest, rfl, rfl, rfl⟩
    · obtain ⟨next, member, waits⟩ := crossed.waits other old
      exact ⟨next, member, waits.mono extended⟩

theorem exists_crossed {plugins callers : List String} {start : List LaneEvent}
    (opened : (run registry {} start).Opened plugins)
    (circuit : ∀ plugin ∈ plugins, ∃ next ∈ plugins,
      Edge registry plugin next)
    (distinct : callers.Nodup) (among : ∀ plugin ∈ callers, plugin ∈ plugins) :
    ∃ events, (run registry {} events).Crossed plugins callers := by
  induction callers with
  | nil =>
      refine ⟨start, opened.accepting, opened.held,
        fun taskId _ => opened.idle taskId, ?_⟩
      intro plugin member
      cases member
  | cons plugin rest induction =>
      obtain ⟨outside, distinct⟩ := List.nodup_cons.mp distinct
      obtain ⟨events, crossed⟩ := induction distinct
        fun other member => among other (List.mem_cons_of_mem _ member)
      have inside := among plugin List.mem_cons_self
      obtain ⟨callee, member, edge⟩ := circuit plugin inside
      obtain ⟨event, crosses⟩ := crossed.step
        (run_sound initial_sound events) inside outside member edge
      refine ⟨events ++ [event], ?_⟩
      rw [run_append]
      exact crosses

/-- Plugins that call each other in a circle come to wait for each other. -/
theorem exists_deadlock (cyclic : ¬Acyclic (Edge registry)) :
    ∃ events, ¬Acyclic (run registry {} events).WaitsFor := by
  obtain ⟨nodes, nonempty, circuit⟩ := exists_circuit cyclic
  have distinct := List.nodup_dedup nodes
  have around : ∀ plugin ∈ nodes.dedup, ∃ next ∈ nodes.dedup,
      Edge registry plugin next := by
    intro plugin member
    obtain ⟨next, inside, edge⟩ := circuit plugin (List.mem_dedup.mp member)
    exact ⟨next, List.mem_dedup.mpr inside, edge⟩
  obtain ⟨start, opened⟩ := exists_opened registry distinct
  obtain ⟨events, crossed⟩ := exists_crossed opened around distinct
    fun _ member => member
  refine ⟨events, ?_⟩
  intro acyclic
  have some' : nodes.dedup ≠ [] := by
    obtain ⟨first, member⟩ := List.exists_mem_of_ne_nil nodes nonempty
    exact List.ne_nil_of_mem (List.mem_dedup.mpr member)
  obtain ⟨plugin, member, sink⟩ := acyclic.exists_sink some'
  obtain ⟨next, inside, waits⟩ := crossed.waits plugin member
  exact sink next inside waits

end PluginHost

/-! ## Safety of the lanes -/

/-- The lanes are safe in every state of every run exactly when the declared
commands do not lead from a plugin back to itself. -/
theorem lanes_safe_iff (registry : PluginRegistry) :
    (∀ events, (PluginHost.run registry {} events).Safe) ↔
      Acyclic (Edge registry) := by
  constructor
  · intro safe
    by_contra cyclic
    obtain ⟨events, circle⟩ := PluginHost.exists_deadlock cyclic
    exact circle (safe events).acyclic
  · intro acyclic events
    exact PluginHost.safe_of_acyclic
      (PluginHost.run_sound PluginHost.initial_sound events) acyclic

/-- Two plugins that call each other. -/
def twoPlugins (id : String) : Option PluginManifest :=
  if id = "acme.a" then
    some
      { invokesCommands := ["acme.b.pull"]
        commands :=
          [{ id := "acme.a.pull"
             operation := false
             isPublic := true }] }
  else if id = "acme.b" then
    some
      { invokesCommands := ["acme.a.pull"]
        commands :=
          [{ id := "acme.b.pull"
             operation := false
             isPublic := true }] }
  else
    none

def crossing : List LaneEvent :=
  [.hostEntry "acme.a" "first", .start 0 false,
    .hostEntry "acme.b" "second", .start 1 false,
    .execute 0 "acme.b.pull" "one" {} true,
    .execute 1 "acme.a.pull" "two" {} true]

/-- The host enters both plugins, each calls the other, and neither call
starts. -/
theorem crossing_deadlocks :
    ¬(PluginHost.run twoPlugins {} crossing).Safe ∧
      ¬(PluginHost.run twoPlugins {} crossing).CanProceed := by
  let host := PluginHost.run twoPlugins {} crossing
  have sound : PluginHost.SoundNow twoPlugins host :=
    PluginHost.run_sound PluginHost.initial_sound crossing
  have admitted : host.admitted = 4 := by decide +kernel
  have bounded : ∀ id entry, host.entries id = some entry → id < 4 := by
    intro id entry found
    rw [← admitted]
    exact sound.bounded id entry found
  have waiting : ∀ id < 4, ∀ entry ∈ host.entries id,
      (entry.state = .running → ∃ other < 4,
        host.awaitsEntry id other = true) ∧
      (entry.state = .queued → host.isNext entry = false) := by
    decide +kernel
  have stuck : ¬host.CanProceed := by
    rintro (⟨id, entry, found, running, free⟩ | ⟨id, entry, found, queued,
      next⟩)
    · have bound := bounded id entry found
      obtain ⟨other, _, awaits⟩ := (waiting id bound entry found).1 running
      rw [free other] at awaits
      cases awaits
    · have bound := bounded id entry found
      rw [(waiting id bound entry found).2 queued] at next
      cases next
  refine ⟨fun safe => ?_, stuck⟩
  have found : host.entries 0 = some
      { plugin := "acme.a"
        chain :=
          { id := "first"
            plugins := ["acme.a"] }
        admittedEpoch := 0
        previous := none
        state := .running } := by
    decide +kernel
  exact stuck (safe.proceeds 0 _ found rfl)

end Motrix.PluginLane
