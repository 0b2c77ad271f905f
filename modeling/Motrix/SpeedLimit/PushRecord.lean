import Motrix.Lib.InFlight
import Motrix.Lib.Trace
import Motrix.SpeedLimit.Controller

/-!
# The record of the last push

The record of what was pushed last and the limits that the engine holds part
ways when calls are taken out of order, when a call that took effect is not
recorded, and when a recompute trusts the record while a call is on its way.
In every run that avoids these the record is right whenever nothing is
outstanding.
-/

namespace Motrix.SpeedLimit

open Lib

namespace World

/-! ## What goes right -/

def Quiet (world : World) : Prop :=
  ∀ call ∈ world.calls, call.phase = .settled

structure Faithful (world : World) : Prop where
  recorded : world.ready = true → world.stopped = false → world.Quiet →
    world.lastPushed = none ∨ world.lastPushed = some world.held
  pushed : world.ready = true → world.stopped = false → world.Quiet →
    world.held ≠ world.getEffective →
    ∃ call, world.recompute.calls = world.calls ++ [call] ∧
      call.limits = world.getEffective
  holds : ∀ limits, world.latest = .succeeded limits → world.held = limits

/-- The call whose limits the engine took last is still to be answered. -/
def Pending (world : World) : Prop :=
  ∃ index ∈ world.writer, ∃ call ∈ world.calls[index]?, call.phase = .taken

/-- A recompute that finds its limits recorded finds no call on its way with
others. -/
def Trusts (world : World) : Prop :=
  world.stopped = false → world.ready = true →
    world.lastPushed = some world.getEffective →
    ∀ call ∈ world.calls, call.phase ≠ .settled →
      call.limits = world.getEffective

def AnswerFits (world : World) (index : Nat) (fulfilled : Bool)
    (call : Call) : Prop :=
  if fulfilled = true ∧ world.isCurrent call.generation = true then
    world.Pending ∨ call.limits = world.held
  else
    world.writer = some index →
      world.lastPushed = none ∨ world.lastPushed = some call.limits

/-- Calls take effect in the order they started; a fulfilled call is recorded
while the one that the engine took last is outstanding, or has the limits
held; a call that fails or was cut off did not have the last word in the
engine, unless the record is empty or has its limits. -/
def Orderly (world : World) : Event → Prop
  | .recompute => world.Trusts
  | .tick =>
      ∀ generation ∈ world.scheduleTimer,
        world.isCurrent generation = true → world.Trusts
  | .start =>
      world.scheduleTimer = none → { world with stopped := false }.Trusts
  | .engineReady limits =>
      world.ready = false → world.stopped = true →
        world.lastPushed = none ∨ world.lastPushed = some limits
  | .takesEffect index =>
      ∀ call ∈ world.calls[index]?, call.phase = .waiting →
        ∀ last ∈ world.writer, last < index
  | .settles index fulfilled =>
      ∀ call ∈ world.calls[index]?, call.phase ≠ .settled →
        world.AnswerFits index fulfilled call
  | _ => True

instance (world : World) : Decidable world.Quiet :=
  inferInstanceAs (Decidable (∀ call ∈ world.calls, call.phase = .settled))

instance (world : World) : Decidable world.Pending :=
  inferInstanceAs (Decidable (∃ index ∈ world.writer,
    ∃ call ∈ world.calls[index]?, call.phase = .taken))

instance (world : World) : Decidable world.Trusts :=
  inferInstanceAs (Decidable (world.stopped = false → world.ready = true →
    world.lastPushed = some world.getEffective →
    ∀ call ∈ world.calls, call.phase ≠ .settled →
      call.limits = world.getEffective))

instance (world : World) (index : Nat) (fulfilled : Bool) (call : Call) :
    Decidable (world.AnswerFits index fulfilled call) :=
  inferInstanceAs (Decidable (
    if fulfilled = true ∧ world.isCurrent call.generation = true then
      world.Pending ∨ call.limits = world.held
    else
      world.writer = some index →
        world.lastPushed = none ∨ world.lastPushed = some call.limits))

instance (world : World) : (event : Event) → Decidable (world.Orderly event)
  | .recompute => inferInstanceAs (Decidable world.Trusts)
  | .tick => inferInstanceAs (Decidable (∀ _ ∈ _, _ → _))
  | .start => inferInstanceAs (Decidable (_ → _))
  | .engineReady _ => inferInstanceAs (Decidable (_ → _ → _))
  | .takesEffect _ => inferInstanceAs (Decidable (∀ _ ∈ _, _ → ∀ _ ∈ _, _))
  | .settles _ _ => inferInstanceAs (Decidable (∀ _ ∈ _, _ → _))
  | .settings _ | .clock _ | .videoApp _ | .stop | .engineLeaves =>
      inferInstanceAs (Decidable True)

theorem conclude_awaits {latest outcome : Latest} {index other : Nat}
    (final : ∀ call, outcome ≠ .awaits call)
    (concludes : latest.conclude index outcome = .awaits other) :
    latest = .awaits other ∧ other ≠ index := by
  unfold Latest.conclude at concludes
  split at concludes
  · exact absurd concludes (final other)
  · next apart =>
      refine ⟨concludes, ?_⟩
      intro same
      exact apart (same ▸ concludes)

theorem conclude_succeeded {latest outcome : Latest} {index : Nat}
    {limits : SpeedLimitProfile}
    (concludes : latest.conclude index outcome = .succeeded limits) :
    (latest = .awaits index ∧ outcome = .succeeded limits) ∨
      latest = .succeeded limits := by
  unfold Latest.conclude at concludes
  split at concludes
  · next awaits => exact Or.inl ⟨awaits, concludes⟩
  · exact Or.inr concludes

/-! ## The invariant -/

structure Sound (world : World) : Prop where
  away : world.ready = false → world.latest = .unknown
  recorded : world.ready = true →
    world.lastPushed = none ∨ world.lastPushed = some world.held ∨
      world.Pending
  writer : ∀ index ∈ world.writer, ∃ call ∈ world.calls[index]?,
    call.phase ≠ .waiting ∧ call.limits = world.held
  awaits : ∀ index, world.latest = .awaits index →
    index + 1 = world.calls.length ∧
      ∀ call ∈ world.calls[index]?, call.phase ≠ .waiting →
        world.writer = some index
  succeeded : ∀ limits, world.latest = .succeeded limits →
    world.held = limits ∧
      ∀ index, ∀ call ∈ world.calls[index]?, call.phase = .waiting →
        call.limits = limits ∨ ∃ last ∈ world.writer, index < last

theorem boot_sound (settings : SpeedLimitSettings) (now : Now)
    (videoAppRunning ready : Bool) (held : SpeedLimitProfile) :
    (boot settings now videoAppRunning ready held).Sound where
  away _ := rfl
  recorded _ := Or.inl rfl
  writer index member := by cases member
  awaits index latest := by cases latest
  succeeded limits latest := by cases latest

namespace Sound

variable {world : World}

theorem emit (sound : world.Sound) (state : SpeedLimitState) :
    (world.emit state).Sound :=
  ⟨sound.away, sound.recorded, sound.writer, sound.awaits, sound.succeeded⟩

/-- With the last call answered, the record is empty or right. -/
theorem recorded_quiet (sound : world.Sound) (ready : world.ready = true)
    (quiet : world.Quiet) :
    world.lastPushed = none ∨ world.lastPushed = some world.held := by
  rcases sound.recorded ready with empty | right | pending
  · exact Or.inl empty
  · exact Or.inr right
  · obtain ⟨index, -, call, found, taken⟩ := pending
    have settled := quiet call (List.mem_of_getElem? found)
    rw [taken] at settled
    cases settled

theorem faithful (sound : world.Sound) : world.Faithful where
  recorded ready _ quiet := sound.recorded_quiet ready quiet
  pushed ready runs quiet differs := by
    have pushes : world.pushes world.getEffective = true := by
      refine pushes_iff.mpr ⟨ready, ?_⟩
      intro recorded
      rcases sound.recorded_quiet ready quiet with empty | right
      · rw [empty] at recorded
        cases recorded
      · rw [right] at recorded
        exact differs (Option.some.inj recorded)
    rw [recompute_pushes runs pushes]
    exact ⟨_, rfl, rfl⟩
  holds limits latest := (sound.succeeded limits latest).1

/-- A record that is trusted is what the engine holds. -/
theorem held_of_trusts (sound : world.Sound) (trusts : world.Trusts)
    (runs : world.stopped = false) (ready : world.ready = true)
    (recorded : world.lastPushed = some world.getEffective) :
    world.held = world.getEffective := by
  rcases sound.recorded ready with empty | right | pending
  · rw [recorded] at empty
    cases empty
  · rw [recorded] at right
    exact (Option.some.inj right).symm
  · obtain ⟨index, last, call, found, taken⟩ := pending
    obtain ⟨call', found', -, limits⟩ := sound.writer index last
    have same : call = call' := Option.some.inj (found.symm.trans found')
    subst same
    rw [← limits]
    apply trusts runs ready recorded call (List.mem_of_getElem? found)
    rw [taken]
    exact CallPhase.noConfusion

theorem recompute (sound : world.Sound) (trusts : world.Trusts) :
    world.recompute.Sound := by
  rcases stopped : world.stopped with _ | _
  · rcases pushes : world.pushes world.getEffective with _ | _
    · rw [recompute_skips stopped pushes]
      refine ⟨?_, sound.recorded, sound.writer, ?_, ?_⟩
      · intro away
        change world.ready = false at away
        rw [away]
        rfl
      · intro index latest
        dsimp only at latest
        split at latest <;> cases latest
      · intro limits latest
        dsimp only at latest
        split at latest
        · next ready =>
            cases latest
            have recorded : world.lastPushed = some world.getEffective := by
              apply Classical.byContradiction
              intro differs
              rw [pushes_iff.mpr ⟨ready, differs⟩] at pushes
              cases pushes
            refine ⟨sound.held_of_trusts trusts stopped ready recorded, ?_⟩
            intro index call found waiting
            apply Or.inl
            apply trusts stopped ready recorded call
              (List.mem_of_getElem? found)
            rw [waiting]
            exact CallPhase.noConfusion
        · cases latest
    · rw [recompute_pushes stopped pushes]
      have kept : ∀ {index : Nat} {call : Call} (new : Call),
          call ∈ world.calls[index]? →
          call ∈ (world.calls ++ [new])[index]? := by
        intro index call new found
        have inside := (List.getElem?_eq_some_iff.mp found).1
        exact (List.getElem?_append_left inside).trans found
      refine ⟨?_, ?_, ?_, ?_, ?_⟩
      · intro away
        change world.ready = false at away
        rw [(pushes_iff.mp pushes).1] at away
        cases away
      · intro ready
        apply (sound.recorded ready).imp_right
        apply Or.imp_right
        rintro ⟨index, last, call, found, taken⟩
        exact ⟨index, last, call, kept _ found, taken⟩
      · intro index last
        obtain ⟨call, found, phase, limits⟩ := sound.writer index last
        exact ⟨call, kept _ found, phase, limits⟩
      · intro index latest
        cases latest
        refine ⟨by simp, ?_⟩
        intro call found phase
        simp only [List.getElem?_concat_length, Option.mem_def,
          Option.some.injEq] at found
        rw [← found] at phase
        exact absurd rfl phase
      · intro limits latest
        cases latest
  · rw [recompute_stopped stopped]
    exact sound

theorem takesEffect (sound : world.Sound) {index : Nat} {call : Call}
    (found : call ∈ world.calls[index]?) (waiting : call.phase = .waiting)
    (order : ∀ last ∈ world.writer, last < index) :
    { world with
      calls := world.calls.set index (call.enter .taken)
      held := call.limits
      writer := some index }.Sound := by
  have inside : index < world.calls.length :=
    (List.getElem?_eq_some_iff.mp found).1
  have there := getElem?_set_found found (call.enter .taken)
  refine ⟨sound.away, ?_, ?_, ?_, ?_⟩
  · intro _
    exact Or.inr (Or.inr ⟨index, rfl, call.enter .taken, there, rfl⟩)
  · intro last isLast
    cases isLast
    exact ⟨call.enter .taken, there, CallPhase.noConfusion, rfl⟩
  · intro other latest
    obtain ⟨end', answered⟩ := sound.awaits other latest
    refine ⟨by simpa using end', ?_⟩
    intro call' found' phase
    rcases getElem?_set_cases found' with ⟨same, -⟩ | ⟨-, old⟩
    · rw [same]
    · have before := order other (answered call' old phase)
      omega
  · intro limits latest
    obtain ⟨-, later⟩ := sound.succeeded limits latest
    constructor
    · rcases later index call found waiting with same | ⟨last, isLast, after⟩
      · exact same
      · exact absurd after (Nat.lt_asymm (order last isLast))
    · intro other call' found' waits
      rcases getElem?_set_cases found' with ⟨-, rfl⟩ | ⟨-, old⟩
      · cases waits
      · apply (later other call' old waits).imp_right
        rintro ⟨last, isLast, after⟩
        exact ⟨index, rfl, Nat.lt_trans after (order last isLast)⟩

/-- An answer leaves the last word of another call pending. -/
theorem pending_set {index : Nat} {call : Call}
    (found : call ∈ world.calls[index]?) (pending : world.Pending)
    (sound : world.Sound) (new : Call) :
    (world.writer = some index ∧ call.limits = world.held) ∨
      { world with calls := world.calls.set index new }.Pending := by
  obtain ⟨last, isLast, call', found', taken⟩ := pending
  by_cases same : last = index
  · subst same
    obtain ⟨call'', found'', -, limits⟩ := sound.writer last isLast
    have equal : call'' = call := Option.some.inj (found''.symm.trans found)
    exact Or.inl ⟨isLast, equal ▸ limits⟩
  · exact Or.inr ⟨last, isLast, call', getElem?_set_apart same found' new, taken⟩

/-- What an answer makes of the record and of the latest recompute. -/
theorem answered (sound : world.Sound) {index : Nat} {call : Call}
    (found : call ∈ world.calls[index]?) (record : Option SpeedLimitProfile)
    {outcome : Latest} (final : ∀ other, outcome ≠ .awaits other)
    (right : world.ready = true →
      record = none ∨ record = some world.held ∨
        { world with
          calls := world.calls.set index (call.enter .settled) }.Pending)
    (success : ∀ limits, outcome = .succeeded limits →
      call.phase = .taken ∧ limits = call.limits) :
    { world with
      calls := world.calls.set index (call.enter .settled)
      lastPushed := record
      latest := world.latest.conclude index outcome }.Sound := by
  refine ⟨?_, right, ?_, ?_, ?_⟩
  · intro away
    change world.latest.conclude index outcome = .unknown
    rw [sound.away away]
    rfl
  · intro last isLast
    obtain ⟨call', found', phase, limits⟩ := sound.writer last isLast
    by_cases same : last = index
    · subst same
      have equal : call' = call := Option.some.inj (found'.symm.trans found)
      subst equal
      exact ⟨_, getElem?_set_found found _, CallPhase.noConfusion, limits⟩
    · exact ⟨call', getElem?_set_apart same found' _, phase, limits⟩
  · intro other latest
    obtain ⟨awaits, apart⟩ := conclude_awaits final latest
    obtain ⟨end', taken⟩ := sound.awaits other awaits
    refine ⟨by simpa using end', ?_⟩
    intro call' found' phase
    rcases getElem?_set_cases found' with ⟨same, -⟩ | ⟨-, old⟩
    · exact absurd same apart
    · exact taken call' old phase
  · intro limits latest
    have waits : ∀ {other : Nat} {call' : Call},
        call' ∈ (world.calls.set index (call.enter .settled))[other]? →
        call'.phase = .waiting →
        other ≠ index ∧ call' ∈ world.calls[other]? := by
      intro other call' found' waiting
      rcases getElem?_set_cases found' with ⟨-, rfl⟩ | old
      · cases waiting
      · exact old
    rcases conclude_succeeded latest with ⟨awaits, succeeds⟩ | before
    · obtain ⟨taken, rfl⟩ := success limits succeeds
      obtain ⟨end', answered⟩ := sound.awaits index awaits
      have last : world.writer = some index :=
        answered call found (by rw [taken]; exact CallPhase.noConfusion)
      obtain ⟨call', found', -, held⟩ := sound.writer index last
      have equal : call' = call := Option.some.inj (found'.symm.trans found)
      subst equal
      refine ⟨held.symm, ?_⟩
      intro other call'' found'' waiting
      obtain ⟨apart, old⟩ := waits found'' waiting
      have inside := (List.getElem?_eq_some_iff.mp old).1
      exact Or.inr ⟨index, last, by omega⟩
    · obtain ⟨held, later⟩ := sound.succeeded limits before
      refine ⟨held, ?_⟩
      intro other call' found' waiting
      exact later other call' (waits found' waiting).2 waiting

theorem resume (sound : world.Sound) {index : Nat} {fulfilled : Bool}
    {call : Call} (found : call ∈ world.calls[index]?)
    (taken : fulfilled = true → call.phase = .taken)
    (fits : world.AnswerFits index fulfilled call) :
    ({ world with
      calls := world.calls.set index (call.enter .settled) }.resume
      index call fulfilled).Sound := by
  have unrecorded : (world.writer = some index →
        world.lastPushed = none ∨ world.lastPushed = some call.limits) →
      { world with
        calls := world.calls.set index (call.enter .settled)
        latest := world.latest.conclude index .unknown }.Sound := by
    intro silent
    apply sound.answered found world.lastPushed
    · exact fun _ => Latest.noConfusion
    · intro ready
      rcases sound.recorded ready with empty | right | pending
      · exact Or.inl empty
      · exact Or.inr (Or.inl right)
      · rcases sound.pending_set found pending (call.enter .settled) with
          ⟨last, held⟩ | other
        · rw [← held]
          exact (silent last).imp_right Or.inl
        · exact Or.inr (Or.inr other)
    · intro limits success
      cases success
  unfold AnswerFits at fits
  unfold World.resume
  rcases current : world.isCurrent call.generation with _ | _
  · have other : ¬ (fulfilled = true ∧
        world.isCurrent call.generation = true) := by simp [current]
    rw [if_neg other] at fits
    rw [if_neg (by simpa [isCurrent] using current)]
    exact unrecorded fits
  · rw [if_pos (by simpa [isCurrent] using current)]
    cases fulfilled with
    | false =>
        rw [if_neg (by simp)] at fits
        rw [if_neg Bool.false_ne_true]
        exact (unrecorded fits).emit call.state
    | true =>
        rw [if_pos ⟨rfl, current⟩] at fits
        rw [if_pos rfl]
        apply emit
        apply sound.answered found (some call.limits)
        · exact fun _ => Latest.noConfusion
        · intro _
          rcases fits with pending | held
          · rcases sound.pending_set found pending (call.enter .settled) with
              ⟨-, held⟩ | other
            · exact Or.inr (Or.inl (congrArg some held))
            · exact Or.inr (Or.inr other)
          · exact Or.inr (Or.inl (congrArg some held))
        · intro limits success
          cases success
          exact ⟨taken rfl, rfl⟩

/-- A process that comes up has taken no call, and unless the controller is
stopped the record is cleared. -/
theorem engineReady (sound : world.Sound) {limits : SpeedLimitProfile}
    (away : world.ready = false)
    (clean : world.ready = false → world.stopped = true →
      world.lastPushed = none ∨ world.lastPushed = some limits) :
    { world with
      ready := true
      held := limits
      writer := none }.onEngineReady.Sound := by
  have fresh : ∀ record : Option SpeedLimitProfile,
      record = none ∨ record = some limits →
      { world with
        ready := true
        held := limits
        writer := none
        lastPushed := record }.Sound := by
    intro record right
    have latest := sound.away away
    refine ⟨?_, ?_, ?_, ?_, ?_⟩
    · intro down
      cases down
    · intro _
      exact right.imp_right Or.inl
    · intro last isLast
      cases isLast
    · intro index awaits
      cases latest.symm.trans awaits
    · intro limits succeeded
      cases latest.symm.trans succeeded
  unfold World.onEngineReady
  split
  · next stopped => exact fresh world.lastPushed (clean away stopped)
  · apply Sound.recompute (fresh none (Or.inl rfl))
    intro _ _ recorded
    cases recorded

end Sound

theorem step_sound (world : World) (event : Event) (sound : world.Sound)
    (orderly : world.Orderly event) : (world.step event).Sound := by
  cases event with
  | settings | clock | videoApp | stop =>
      exact ⟨sound.away, sound.recorded, sound.writer, sound.awaits,
        sound.succeeded⟩
  | recompute => exact sound.recompute orderly
  | tick =>
      simp only [step, tick]
      split
      · exact sound
      · next generation armed =>
          split
          · next current =>
              exact sound.recompute (orderly generation armed current)
          · exact sound
  | start =>
      simp only [step, start]
      split
      · exact sound
      · next idle =>
          apply Sound.recompute
          · exact ⟨sound.away, sound.recorded, sound.writer, sound.awaits,
              sound.succeeded⟩
          · exact orderly idle
  | engineLeaves =>
      refine ⟨fun _ => rfl, ?_, sound.writer, ?_, ?_⟩
      · intro ready
        cases ready
      · intro index latest
        cases latest
      · intro limits latest
        cases latest
  | engineReady limits =>
      simp only [step, World.engineReady]
      split
      · exact sound
      · next away =>
          exact sound.engineReady (by simpa using away) (orderly · ·)
  | takesEffect index =>
      simp only [step, World.takesEffect]
      split
      · exact sound
      · next call found =>
          split
          · next waiting =>
              exact sound.takesEffect found waiting
                (orderly call found waiting)
          · exact sound
  | settles index fulfilled =>
      simp only [step, World.settles]
      split
      · exact sound
      · next call found =>
          split
          · next open' =>
              apply sound.resume found
              · intro isFulfilled
                rcases open' with taken | ⟨-, failed⟩
                · exact taken
                · rw [isFulfilled] at failed
                  cases failed
              · apply orderly call found
                rcases open' with taken | ⟨waiting, -⟩
                · rw [taken]
                  exact CallPhase.noConfusion
                · rw [waiting]
                  exact CallPhase.noConfusion
          · exact sound

end World

open World

/-- Whenever the controller runs, the engine is ready and no call is
outstanding, the record is empty or what the engine holds. -/
theorem orderlyPushes_faithful (settings : SpeedLimitSettings) (now : Now)
    (videoAppRunning ready : Bool) (held : SpeedLimitProfile)
    (events : List Event)
    (orderly : Steps step Orderly
      (boot settings now videoAppRunning ready held) events) :
    (events.foldl step
      (boot settings now videoAppRunning ready held)).Faithful := by
  have sound := Steps.invariant step_sound
    (boot_sound settings now videoAppRunning ready held) orderly
  exact sound.faithful

/-! ## Two runs -/

def baseOnly (base : SpeedLimitProfile) : SpeedLimitSettings where
  base := base
  alt := ⟨524288, 65536⟩
  turtle := .off
  auto := {
    schedule := {
      enabled := false
      from' := ⟨23, 0⟩
      to' := ⟨7, 0⟩
      days := []
    }
    videoAppEnabled := false
    adaptive := {
      enabled := false
      linkDown := 0
      linkUp := 0
      headroomPercent := 80
    }
  }

def midday : Now where
  day := 2
  time := ⟨12, 0⟩

/-- A push overlaps with the one before it, and the engine comes back once. -/
def overlappingPushes : List Event :=
  [.start, .settings (baseOnly ⟨500, 50⟩), .recompute, .takesEffect 0,
    .takesEffect 1, .settles 0 true, .settles 1 true, .recompute,
    .engineLeaves, .tick, .engineReady ⟨0, 0⟩, .takesEffect 2,
    .settles 2 true, .stop, .start]

/-- The answer to a push that took effect is lost, and the settings change
back. -/
def lostAnswer : List Event :=
  [.recompute, .takesEffect 0, .settles 0 true,
    .settings (baseOnly ⟨500, 50⟩), .recompute, .takesEffect 1,
    .settles 1 false, .settings (baseOnly ⟨700, 70⟩), .recompute]

theorem orderlyPushes_faithful_overlapping :
    (overlappingPushes.foldl step
      (boot (baseOnly ⟨700, 70⟩) midday false true ⟨0, 0⟩)).Faithful :=
  orderlyPushes_faithful (baseOnly ⟨700, 70⟩) midday false true ⟨0, 0⟩
    overlappingPushes (by decide)

theorem lostAnswer_unfaithful :
    ¬ ∀ (settings : SpeedLimitSettings) (now : Now)
      (videoAppRunning ready : Bool) (held : SpeedLimitProfile)
      (events : List Event),
      (events.foldl step
        (boot settings now videoAppRunning ready held)).Faithful := by
  intro faithful
  have recorded := (faithful (baseOnly ⟨700, 70⟩) midday false true ⟨0, 0⟩
    lostAnswer).recorded rfl rfl
  rcases recorded (by decide) with empty | right
  · cases empty
  · cases right

end Motrix.SpeedLimit
