import Motrix.Download.SegmentDownloader

/-!
# The gids of a run

A gid that the engine has answered with is never forgotten: its removal is
asked for, its answer waits to be handled, or, as long as the run is not
cancelled, it is with the engine or being settled.
-/

namespace Motrix.Download

/-- The gid that an operation has asked the engine to remove. -/
def Operation.purged? : Operation → Option String
  | .adding _ => none
  | .added _ _ => none
  | .removing gid _ => some gid
  | .sizing _ _ _ => none
  | .purging gid _ _ _ => some gid
  | .clearing gid _ _ => some gid

inductive Placed (state : RunState) (gid : String) : Prop where
  | asked (removal : gid ∈ state.removals)
  | added (job : Nat) (waiting : .added job gid ∈ state.operations)
  | active (phase : state.cancelPhase = .none)
      (member : gid ∈ activeGids state)
  | settling (phase : state.cancelPhase = .none)
      (member : gid ∈ state.settlingGids)

structure GidSound (state : RunState) : Prop where
  phase : state.cancelled = true ↔ state.cancelPhase ≠ .none
  placed : ∀ gid ∈ state.returned, Placed state gid
  asked : ∀ operation ∈ state.operations, ∀ gid,
    operation.purged? = some gid → gid ∈ state.removals
  drained : state.cancelPhase = .done →
    state.operations = [] ∧ state.activeJobs = []

/-- Nothing differs for the gids; some jobs may wait to be created. -/
structure SameGids (state next : RunState) : Prop where
  cancelled : next.cancelled = state.cancelled
  cancelPhase : next.cancelPhase = state.cancelPhase
  activeJobs : next.activeJobs = state.activeJobs
  settlingGids : next.settlingGids = state.settlingGids
  returned : next.returned = state.returned
  removals : next.removals = state.removals
  operations : ∃ jobs : List Nat,
    next.operations = state.operations ++ jobs.map .adding ∧
      (state.cancelled = true → jobs = [])

namespace SameGids

variable {first second third : RunState}

theorem ofEq (cancelled : second.cancelled = first.cancelled)
    (cancelPhase : second.cancelPhase = first.cancelPhase)
    (activeJobs : second.activeJobs = first.activeJobs)
    (settlingGids : second.settlingGids = first.settlingGids)
    (returned : second.returned = first.returned)
    (removals : second.removals = first.removals)
    (operations : second.operations = first.operations) :
    SameGids first second := by
  refine ⟨cancelled, cancelPhase, activeJobs, settlingGids, returned,
    removals, [], ?_, fun _ => rfl⟩
  rw [operations, List.map_nil, List.append_nil]

theorem refl (state : RunState) : SameGids state state :=
  .ofEq rfl rfl rfl rfl rfl rfl rfl

theorem trans (one : SameGids first second) (two : SameGids second third) :
    SameGids first third where
  cancelled := two.cancelled.trans one.cancelled
  cancelPhase := two.cancelPhase.trans one.cancelPhase
  activeJobs := two.activeJobs.trans one.activeJobs
  settlingGids := two.settlingGids.trans one.settlingGids
  returned := two.returned.trans one.returned
  removals := two.removals.trans one.removals
  operations := by
    obtain ⟨jobs, operations, none⟩ := one.operations
    obtain ⟨more, further, noMore⟩ := two.operations
    refine ⟨jobs ++ more, ?_, ?_⟩
    · rw [further, operations, List.map_append, List.append_assoc]
    · intro cancelled
      rw [none cancelled, noMore (one.cancelled.trans cancelled)]
      rfl

theorem settled (state : RunState) (outcome : Outcome) :
    SameGids state (settle (stopPolling state) outcome) :=
  .ofEq rfl rfl rfl rfl rfl rfl rfl

theorem sized (state : RunState) (job size : Nat) :
    SameGids state (recordSize state job size) := by
  unfold recordSize
  by_cases none : size = 0
  · rw [if_pos none]
    exact .refl state
  · rw [if_neg none]
    exact .ofEq rfl rfl rfl rfl rfl rfl rfl

theorem submitted (state : RunState) (job : Nat) :
    SameGids state (submitJob state job) := by
  unfold submitJob
  by_cases cancelled : state.cancelled = true
  · rw [if_pos cancelled]
    exact .refl state
  · rw [if_neg cancelled]
    exact ⟨rfl, rfl, rfl, rfl, rfl, rfl, [job], rfl,
      fun stopped => absurd stopped cancelled⟩

theorem drainedLoop (config : Config) (fuel : Nat) (state : RunState) :
    SameGids state (drainLoop config fuel state) := by
  induction fuel generalizing state with
  | zero => exact .refl state
  | succ fuel induction =>
      unfold drainLoop
      split_ifs
      · have advanced : SameGids state
            { state with nextJob := state.nextJob + 1 } :=
          .ofEq rfl rfl rfl rfl rfl rfl rfl
        exact advanced.trans ((submitted _ _).trans (induction _))
      · exact .refl state

theorem drained (config : Config) (state : RunState) :
    SameGids state (drain config state) :=
  drainedLoop config _ state

theorem resolvedWhenDone (config : Config) (state : RunState) :
    SameGids state (resolveWhenDone config state) := by
  unfold resolveWhenDone
  split_ifs
  · exact .settled state _
  · exact .refl state

theorem pollAnswered (statuses : String → Option Status) (state : RunState)
    (gid : String) : SameGids state (pollAnswer statuses state gid) := by
  rcases pollAnswer_cases statuses state gid with
    unchanged | ⟨job, size, seen, file, -, -, counted⟩
  · rw [unchanged]
    exact .refl state
  · rw [counted]
    exact (SameGids.sized state job size).trans
      (.ofEq rfl rfl rfl rfl rfl rfl rfl)

theorem pollsAnswered (statuses : String → Option Status)
    (gids : List String) (state : RunState) :
    SameGids state (gids.foldl (pollAnswer statuses) state) :=
  List.foldlRecOn gids (pollAnswer statuses) (.refl state)
    fun _ same gid _ => same.trans (pollAnswered statuses _ gid)

end SameGids

/-! ## Steps -/

namespace GidSound

variable {state next : RunState}

theorem same (sound : GidSound state) (same : SameGids state next) :
    GidSound next := by
  obtain ⟨jobs, operations, none⟩ := same.operations
  refine ⟨?_, ?_, ?_, ?_⟩
  · rw [same.cancelled, same.cancelPhase]
    exact sound.phase
  · intro gid member
    rw [same.returned] at member
    cases sound.placed gid member with
    | asked removal =>
        apply Placed.asked
        rw [same.removals]
        exact removal
    | added job waiting =>
        apply Placed.added job
        rw [operations]
        exact List.mem_append_left _ waiting
    | active phase member =>
        apply Placed.active (same.cancelPhase.trans phase)
        unfold activeGids
        rw [same.activeJobs]
        exact member
    | settling phase member =>
        apply Placed.settling (same.cancelPhase.trans phase)
        rw [same.settlingGids]
        exact member
  · intro operation member gid purged
    rw [operations] at member
    rw [same.removals]
    rcases List.mem_append.mp member with earlier | submitted
    · exact sound.asked operation earlier gid purged
    · obtain ⟨job, _, rfl⟩ := List.mem_map.mp submitted
      cases purged
  · intro done
    rw [same.cancelPhase] at done
    have cancelled := sound.phase.mpr (by rw [done]; nofun)
    rw [same.activeJobs, operations, none cancelled, List.map_nil,
      List.append_nil]
    exact sound.drained done

theorem playing (sound : GidSound state) (playing : ¬ state.cancelled = true) :
    state.cancelPhase = .none := by
  by_contra phase
  exact playing (sound.phase.mpr phase)

/-- What holds for the gids when the operations are others. -/
theorem reordered (sound : GidSound state) (operations : List Operation)
    (kept : ∀ job gid, .added job gid ∈ state.operations →
      .added job gid ∈ operations ∨ Placed
        { state with operations := operations } gid)
    (asked : ∀ operation ∈ operations, ∀ gid,
      operation.purged? = some gid → gid ∈ state.removals)
    (drained : state.cancelPhase = .done → operations = []) :
    GidSound { state with operations := operations } where
  phase := sound.phase
  placed := by
    intro gid member
    cases sound.placed gid member with
    | asked removal => exact .asked removal
    | added job waiting =>
        rcases kept job gid waiting with waits | placed
        · exact .added job waits
        · exact placed
    | active phase member => exact .active phase member
    | settling phase member => exact .settling phase member
  asked := asked
  drained done := ⟨drained done, (sound.drained done).2⟩

variable {index : Nat} {operation : Operation}

theorem notDone (sound : GidSound state)
    (found : state.operations[index]? = some operation) :
    state.cancelPhase ≠ .done := by
  intro done
  rw [(sound.drained done).1] at found
  cases found

/-- Another operation takes the place of one. -/
theorem swapped (sound : GidSound state)
    (found : state.operations[index]? = some operation)
    (left : ∀ job gid, operation = .added job gid →
      gid ∈ state.removals) {other : Operation}
    (asked : ∀ gid, other.purged? = some gid → gid ∈ state.removals) :
    GidSound (setOperation state index other) := by
  apply sound.reordered
  · intro job gid waiting
    obtain ⟨place, small, at'⟩ := List.mem_iff_getElem.mp waiting
    by_cases here : index = place
    · subst here
      rw [List.getElem?_eq_getElem small, at'] at found
      cases found
      exact .inr (.asked (left job gid rfl))
    · apply Or.inl
      apply List.mem_iff_getElem.mpr
      refine ⟨place, by rw [List.length_set]; exact small, ?_⟩
      rw [List.getElem_set_ne here]
      exact at'
  · intro operation member gid purged
    rcases List.mem_or_eq_of_mem_set member with earlier | rfl
    · exact sound.asked operation earlier gid purged
    · exact asked gid purged
  · intro done
    exact absurd done (sound.notDone found)

theorem ended (sound : GidSound state)
    (found : state.operations[index]? = some operation)
    (left : ∀ job gid, operation = .added job gid →
      Placed (endOperation state index) gid) :
    GidSound (endOperation state index) := by
  apply sound.reordered
  · intro job gid waiting
    by_cases same : operation = .added job gid
    · exact .inr (left job gid same)
    · apply Or.inl
      obtain ⟨place, small, at'⟩ := List.mem_iff_getElem.mp waiting
      apply List.mem_eraseIdx_iff_getElem.mpr
      refine ⟨place, small, ?_, at'⟩
      rintro rfl
      rw [List.getElem?_eq_getElem small, at'] at found
      exact same (Option.some.inj found).symm
  · intro operation member gid purged
    exact sound.asked operation (List.mem_of_mem_eraseIdx member) gid purged
  · intro done
    exact absurd done (sound.notDone found)

theorem begun (sound : GidSound state) (busy : state.cancelPhase ≠ .done)
    (asked : ∀ gid, operation.purged? = some gid → gid ∈ state.removals) :
    GidSound (addOperation state operation) := by
  apply sound.reordered
  · intro job gid waiting
    exact .inl (List.mem_append_left _ waiting)
  · intro other member gid purged
    rcases List.mem_append.mp member with earlier | last
    · exact sound.asked other earlier gid purged
    · rw [List.mem_singleton.mp last] at purged
      exact asked gid purged
  · intro done
    exact absurd done busy

theorem removalAsked (sound : GidSound state) (gid : String) :
    GidSound (askRemoval state gid) where
  phase := sound.phase
  placed := by
    intro other member
    cases sound.placed other member with
    | asked removal => exact .asked (List.mem_append_left _ removal)
    | added job waiting => exact .added job waiting
    | active phase member => exact .active phase member
    | settling phase member => exact .settling phase member
  asked operation member other purged :=
    List.mem_append_left _ (sound.asked operation member other purged)
  drained := sound.drained

theorem mem_askRemoval (gid : String) :
    gid ∈ (askRemoval state gid).removals :=
  List.mem_append_right _ (List.mem_singleton_self gid)

theorem mem_addSettling (gid : String) :
    gid ∈ (addSettling state gid).settlingGids := by
  unfold addSettling
  by_cases member : gid ∈ state.settlingGids
  · simp only [if_pos member]
    exact member
  · simp only [if_neg member]
    exact List.mem_append_right _ (List.mem_singleton_self gid)

theorem addSettling_kept {other : String} (gid : String)
    (member : other ∈ state.settlingGids) :
    other ∈ (addSettling state gid).settlingGids := by
  unfold addSettling
  split_ifs
  · exact member
  · exact List.mem_append_left _ member

/-- The gid that the engine is done with is being settled. -/
theorem settles (sound : GidSound state) (gid : String) :
    GidSound (addSettling (dropActive state gid) gid) where
  phase := sound.phase
  placed := by
    intro other member
    cases sound.placed other member with
    | asked removal => exact .asked removal
    | added job waiting => exact .added job waiting
    | active phase member =>
        by_cases same : other = gid
        · rw [same]
          exact .settling phase (mem_addSettling gid)
        · refine .active phase ?_
          obtain ⟨entry, present, rfl⟩ := List.mem_map.mp member
          apply List.mem_map_of_mem
          apply List.mem_filter.mpr
          exact ⟨present, bne_iff_ne.mpr same⟩
    | settling phase member =>
        exact .settling phase (addSettling_kept gid member)
  asked := sound.asked
  drained := by
    intro done
    obtain ⟨operations, active⟩ := sound.drained done
    refine ⟨operations, ?_⟩
    show state.activeJobs.filter _ = []
    rw [active]
    rfl

theorem isSettled (sound : GidSound state) {gid : String}
    (removal : gid ∈ state.removals) : GidSound (dropSettling state gid) where
  phase := sound.phase
  placed := by
    intro other member
    cases sound.placed other member with
    | asked removal => exact .asked removal
    | added job waiting => exact .added job waiting
    | active phase member => exact .active phase member
    | settling phase member =>
        by_cases same : other = gid
        · rw [same]
          exact .asked removal
        · refine .settling phase ?_
          exact List.mem_filter.mpr ⟨member, bne_iff_ne.mpr same⟩
  asked := sound.asked
  drained := sound.drained

theorem mem_setEntry (gid : String) (job : Nat)
    (entries : List (String × Nat)) :
    gid ∈ (setEntry gid job entries).map (·.1) := by
  induction entries with
  | nil => exact List.mem_singleton_self gid
  | cons entry entries induction =>
      rw [setEntry]
      split_ifs
      · exact List.mem_cons_self
      · exact List.mem_cons_of_mem _ induction

theorem setEntry_kept {gid other : String} (job : Nat)
    {entries : List (String × Nat)} (member : other ∈ entries.map (·.1)) :
    other ∈ (setEntry gid job entries).map (·.1) := by
  induction entries with
  | nil => cases member
  | cons entry entries induction =>
      rw [setEntry]
      split_ifs with same
      · rw [← same]
        exact member
      · rcases List.mem_cons.mp member with rfl | later
        · exact List.mem_cons_self
        · exact List.mem_cons_of_mem _ (induction later)

theorem registered (sound : GidSound state) (gid : String) (job : Nat)
    (busy : state.cancelPhase ≠ .done) :
    GidSound (setActive state gid job) where
  phase := sound.phase
  placed := by
    intro other member
    cases sound.placed other member with
    | asked removal => exact .asked removal
    | added job waiting => exact .added job waiting
    | active phase member => exact .active phase (setEntry_kept job member)
    | settling phase member => exact .settling phase member
  asked := sound.asked
  drained done := absurd done busy

/-! ## Events -/

theorem answered (sound : GidSound state) {job : Nat} (gid : String)
    (found : state.operations[index]? = some (.adding job)) :
    GidSound (setOperation
      { state with returned := state.returned ++ [gid] } index
      (.added job gid)) := by
  have waiting : ∀ other, (Operation.added job gid).purged? = some other →
      other ∈ state.removals := nofun
  have swapped := sound.swapped found nofun waiting
  refine ⟨swapped.phase, ?_, swapped.asked, swapped.drained⟩
  intro other member
  rcases List.mem_append.mp member with earlier | last
  · cases swapped.placed other earlier with
    | asked removal => exact .asked removal
    | added job waiting => exact .added job waiting
    | active phase member => exact .active phase member
    | settling phase member => exact .settling phase member
  · rw [List.mem_singleton.mp last]
    apply Placed.added job
    apply List.mem_iff_getElem?.mpr
    have small := (List.getElem?_eq_some_iff.mp found).1
    exact ⟨index, List.getElem?_set_self small⟩

theorem addUriContinued (sound : GidSound state) {job : Nat} {gid : String}
    (found : state.operations[index]? = some (.added job gid)) :
    GidSound (addUriContinued state index job gid) := by
  unfold Download.addUriContinued
  by_cases cancelled : state.cancelled = true
  · rw [if_pos cancelled]
    have slot : GidSound { state with running := state.running - 1 } :=
      sound.same (.ofEq rfl rfl rfl rfl rfl rfl rfl)
    have removing : ∀ other, other = gid → other ∈
        (askRemoval { state with running := state.running - 1 }
          gid).removals := by
      rintro other rfl
      exact mem_askRemoval other
    apply (slot.removalAsked gid).swapped found
    · intro other answer same
      cases same
      exact removing _ rfl
    · intro answer same
      exact removing _ (Option.some.inj same).symm
  · rw [if_neg cancelled]
    have phase := sound.playing cancelled
    apply (sound.registered gid job (by rw [phase]; nofun)).ended found
    intro other answer same
    cases same
    exact .active phase (mem_setEntry gid job state.activeJobs)

theorem onComplete (sound : GidSound state) (gid : String) :
    GidSound (onComplete state gid) := by
  unfold Download.onComplete
  cases active : activeJob state gid with
  | none => exact sound
  | some job =>
      have busy : state.cancelPhase ≠ .done := by
        intro done
        unfold activeJob at active
        rw [(sound.drained done).2] at active
        cases active
      have settling := sound.settles gid
      simp only
      split_ifs
      · exact settling.begun busy nofun
      · have sized := SameGids.sized (addSettling (dropActive state gid) gid)
          job (finalSize none (state.lastSeen gid)
            ((addSettling (dropActive state gid) gid).knownSize job))
        apply ((settling.same sized).removalAsked gid).begun
        · intro done
          exact busy (sized.cancelPhase.symm.trans done)
        · intro other purged
          cases purged
          exact mem_askRemoval gid

theorem onError (sound : GidSound state) (gid : String) :
    GidSound (onError state gid) := by
  unfold Download.onError
  cases active : activeJob state gid with
  | none => exact sound
  | some job =>
      have busy : state.cancelPhase ≠ .done := by
        intro done
        unfold activeJob at active
        rw [(sound.drained done).2] at active
        cases active
      simp only
      apply GidSound.begun
      · apply removalAsked
        exact (sound.settles gid).same (.ofEq rfl rfl rfl rfl rfl rfl rfl)
      · exact busy
      · intro other purged
        cases purged
        exact mem_askRemoval gid

theorem addUriRejected (sound : GidSound state) {job : Nat} (message : String)
    (found : state.operations[index]? = some (.adding job)) :
    GidSound (addUriRejected state index message) := by
  have slot : GidSound { state with running := state.running - 1 } :=
    sound.same (.ofEq rfl rfl rfl rfl rfl rfl rfl)
  have done := slot.ended found nofun
  unfold Download.addUriRejected
  simp only
  split_ifs
  · exact done
  · exact done.same (.settled _ _)

theorem completeJob (sound : GidSound state) (config : Config) {gid : String}
    (removal : gid ∈ state.removals) (job size : Nat) :
    GidSound (completeJob config state gid job size) := by
  have settled := sound.isSettled removal
  unfold Download.completeJob
  simp only
  split_ifs
  · exact settled
  · apply GidSound.same _ (.resolvedWhenDone config _)
    apply GidSound.same _ (.drained config _)
    exact settled.same (.ofEq rfl rfl rfl rfl rfl rfl rfl)

theorem retryJob (sound : GidSound state) (config : Config) {gid : String}
    (removal : gid ∈ state.removals) (job : Nat) :
    GidSound (retryJob config state gid job) := by
  have settled := sound.isSettled removal
  unfold Download.retryJob
  simp only
  split_ifs
  · exact settled.same (.ofEq rfl rfl rfl rfl rfl rfl rfl)
  · apply GidSound.same _ (.submitted _ job)
    exact settled.same (.ofEq rfl rfl rfl rfl rfl rfl rfl)
  · apply GidSound.same _ (.settled _ _)
    exact settled.same (.ofEq rfl rfl rfl rfl rfl rfl rfl)

theorem removalSettled (sound : GidSound state) (config : Config)
    (found : state.operations[index]? = some operation) (removed : Bool) :
    GidSound (removalSettled config state index removed operation) := by
  have member := List.mem_of_getElem? found
  have ended : operation.purged? ≠ none →
      GidSound (endOperation state index) := by
    intro purged
    apply sound.ended found
    rintro job gid rfl
    exact absurd rfl purged
  have again : ∀ (gid : String) (other : Operation),
      operation.purged? ≠ none → other.purged? = some gid →
      GidSound (setOperation (askRemoval state gid) index other) := by
    intro gid other purged same
    apply (sound.removalAsked gid).swapped found
    · rintro job answer rfl
      exact absurd rfl purged
    · intro answer asked
      rw [same] at asked
      cases asked
      exact mem_askRemoval gid
  cases operation with
  | adding job => exact sound
  | added job gid => exact sound
  | sizing gid job seen => exact sound
  | removing gid job => exact ended nofun
  | purging gid job size second =>
      unfold Download.removalSettled
      simp only
      split_ifs
      · exact (ended nofun).completeJob config
          (sound.asked _ member gid rfl) job size
      · exact (ended nofun).same (.settled _ _)
      · exact again gid _ nofun rfl
  | clearing gid job second =>
      unfold Download.removalSettled
      simp only
      split_ifs
      · exact (ended nofun).retryJob config (sound.asked _ member gid rfl) job
      · exact (ended nofun).same (.settled _ _)
      · exact again gid _ nofun rfl

theorem cancel (sound : GidSound state) : GidSound (cancel state) := by
  unfold Download.cancel
  cases phase : state.cancelPhase with
  | none =>
      refine ⟨⟨nofun, fun _ => rfl⟩, ?_, ?_, nofun⟩
      · intro gid member
        have found : gid ∈ state.removals ∨
            gid ∈ activeGids state ++ state.settlingGids ∨
            ∃ job, .added job gid ∈ state.operations := by
          cases sound.placed gid member with
          | asked removal => exact .inl removal
          | added job waiting => exact .inr (.inr ⟨job, waiting⟩)
          | active phase member =>
              exact .inr (.inl (List.mem_append_left _ member))
          | settling phase member =>
              exact .inr (.inl (List.mem_append_right _ member))
        rcases found with removal | removal | ⟨job, waiting⟩
        · exact .asked (List.mem_append_left _ removal)
        · exact .asked (List.mem_append_right _ removal)
        · exact .added job waiting
      · intro operation member gid purged
        exact List.mem_append_left _
          (sound.asked operation member gid purged)
  | _ => exact sound

/-- After the cancellation only removals and waiting answers count. -/
theorem rephased (sound : GidSound state) (next : RunState)
    (before : state.cancelPhase ≠ .none) (after : next.cancelPhase ≠ .none)
    (cancelled : next.cancelled = state.cancelled)
    (returned : next.returned = state.returned)
    (removals : next.removals = state.removals)
    (operations : next.operations = state.operations)
    (drained : next.cancelPhase = .done →
      next.operations = [] ∧ next.activeJobs = []) : GidSound next where
  phase := by
    rw [cancelled, sound.phase]
    exact ⟨fun _ => after, fun _ => before⟩
  placed := by
    intro gid member
    rw [returned] at member
    cases sound.placed gid member with
    | asked removal =>
        apply Placed.asked
        rw [removals]
        exact removal
    | added job waiting =>
        apply Placed.added job
        rw [operations]
        exact waiting
    | active phase member => exact absurd phase before
    | settling phase member => exact absurd phase before
  asked := by
    rw [removals, operations]
    exact sound.asked
  drained := drained

theorem cancelDrained (sound : GidSound state) :
    GidSound (cancelDrained state) := by
  unfold Download.cancelDrained
  split_ifs with ready
  · apply sound.rephased
    · rw [ready.1]
      nofun
    · nofun
    · rfl
    · rfl
    · rfl
    · rfl
    · intro _
      exact ⟨ready.2, rfl⟩
  · exact sound

theorem applyEvent (sound : GidSound state) (config : Config)
    (event : RunEvent) : GidSound (applyEvent config state event) := by
  cases event with
  | addUriCreated index gid =>
      simp only [Download.applyEvent]
      cases found : state.operations[index]? with
      | none => exact sound
      | some operation =>
          cases operation with
          | adding job => exact sound.answered gid found
          | _ => exact sound
  | addUriContinued index =>
      simp only [Download.applyEvent]
      cases found : state.operations[index]? with
      | none => exact sound
      | some operation =>
          cases operation with
          | added job gid => exact sound.addUriContinued found
          | _ => exact sound
  | addUriRejected index message =>
      simp only [Download.applyEvent]
      cases found : state.operations[index]? with
      | none => exact sound
      | some operation =>
          cases operation with
          | adding job => exact sound.addUriRejected message found
          | _ => exact sound
  | complete gid => exact sound.onComplete gid
  | error gid => exact sound.onError gid
  | statusRead index status =>
      simp only [Download.applyEvent]
      cases found : state.operations[index]? with
      | none => exact sound
      | some operation =>
          cases operation with
          | sizing gid job seen =>
              have sized := SameGids.sized state job
                (finalSize status seen (state.knownSize job))
              obtain ⟨jobs, operations, -⟩ := sized.operations
              apply ((sound.same sized).removalAsked gid).swapped
              · show (recordSize state job _).operations[index]? = _
                rw [operations]
                exact List.getElem?_append_left
                  (List.getElem?_eq_some_iff.mp found).1 ▸ found
              · nofun
              · intro other purged
                cases purged
                exact mem_askRemoval gid
          | _ => exact sound
  | removalSettled index removed =>
      simp only [Download.applyEvent]
      cases found : state.operations[index]? with
      | none => exact sound
      | some operation => exact sound.removalSettled config found removed
  | pollStarted =>
      simp only [Download.applyEvent, pollStarted]
      split_ifs
      · exact sound
      · exact sound
      · exact sound.same (.ofEq rfl rfl rfl rfl rfl rfl rfl)
  | pollSettled statuses =>
      simp only [Download.applyEvent, pollSettled]
      cases state.polling with
      | none => exact sound
      | some gids =>
          have answered := sound.same (.pollsAnswered statuses gids state)
          exact answered.same (.ofEq rfl rfl rfl rfl rfl rfl rfl)
  | cancel => exact sound.cancel
  | cancelRemovalsSettled =>
      simp only [Download.applyEvent]
      split_ifs with removing
      · apply sound.rephased
        · rw [removing]
          nofun
        · nofun
        · rfl
        · rfl
        · rfl
        · rfl
        · nofun
      · exact sound
  | cancelDrained => exact sound.cancelDrained

end GidSound

theorem startRun_gids (config : Config) : GidSound (startRun config) := by
  have empty : GidSound {} := ⟨⟨nofun, nofun⟩, nofun, nofun, nofun⟩
  have declared : GidSound (config.jobs.foldl recordDeclared {}) :=
    List.foldlRecOn config.jobs recordDeclared empty
      fun state sound job _ => sound.same (.sized state _ _)
  unfold startRun
  split_ifs
  · exact empty.same (.ofEq rfl rfl rfl rfl rfl rfl rfl)
  · exact declared.same (.drained config _)

theorem runEvents_gids (config : Config) (events : List RunEvent) :
    GidSound (runEvents config events) :=
  List.foldlRecOn events (applyEvent config) (startRun_gids config)
    fun _ sound event _ => sound.applyEvent config event

end Motrix.Download
