import Mathlib.Data.List.Induction
import Motrix.Task.TaskIndexes

/-!
# Runs of the task manager

What every sequence of calls keeps: who owns an engine id, what is reported
retired, and what ends a reservation.
-/

namespace Motrix.Task

/-! ## Steps -/

/-- Task ids are not empty, and a reservation is retired only while no task
owns its id. -/
def Operation.Legal (manager : TaskManager) : Operation → Prop
  | .set id _ => id ≠ ""
  | .setReservedOwner id _ _ => id ≠ ""
  | .retireReservation engineTaskId => manager.engineIndex engineTaskId = none
  | _ => True

/-- The id that a call stores under or deletes, and what it stores. -/
def Operation.writes (manager : TaskManager) :
    Operation → Option (String × Option DownloadTask)
  | .set id task => some (id, some task)
  | .remove id => some (id, none)
  | .setReservedOwner id task engineTaskId =>
      if engineTaskId ∈ manager.reservedEngineGids ∧
          engineTaskId ∈ collectTaskGids task then
        some (id, some task)
      else
        none
  | .rollback id engineTaskId replacement =>
      if engineTaskId ∈ manager.reservedEngineGids ∧
          manager.engineIndex engineTaskId = some id then
        some (id, replacement)
      else
        none
  | _ => none

namespace TaskManager

variable {manager : TaskManager}

structure Untouched (manager next : TaskManager) : Prop where
  tasks : ∀ id, (next.tasks id).isSome = (manager.tasks id).isSome
  index : next.engineIndex = manager.engineIndex
  retired : ∀ gid, gid ∈ next.retiredEngineGids →
    gid ∈ manager.retiredEngineGids ∨ manager.engineIndex gid = none
  indexed : Indexed next

theorem Indexed.untouched (indexed : Indexed manager) :
    Untouched manager manager where
  tasks _ := rfl
  index := rfl
  retired _ inside := Or.inl inside
  indexed := indexed

theorem Untouched.withReserved {next : TaskManager}
    (untouched : Untouched manager next) (reserved : List String) :
    Untouched manager { next with reservedEngineGids := reserved } where
  tasks := untouched.tasks
  index := untouched.index
  retired := untouched.retired
  indexed := untouched.indexed.withShields _ _

theorem Indexed.retireReservation_untouched (indexed : Indexed manager)
    {engineTaskId : String}
    (unowned : manager.engineIndex engineTaskId = none) :
    Untouched manager (manager.retireEngineTaskIdReservation engineTaskId).2 :=
    by
  unfold retireEngineTaskIdReservation
  by_cases reserved :
      (manager.releaseEngineTaskIdReservation engineTaskId).1 = true
  · rw [if_pos reserved]
    have released := indexed.untouched.withReserved
      (deleteFromSet manager.reservedEngineGids engineTaskId)
    constructor
    · exact released.tasks
    · rfl
    · intro gid inside
      rcases mem_retireGid inside with earlier | rfl
      · exact Or.inl earlier
      · exact Or.inr unowned
    · exact indexed.withShields _ _
  · rw [if_neg reserved]
    exact indexed.untouched

theorem Indexed.mutate_untouched (indexed : Indexed manager) (id : String)
    (task : DownloadTask) :
    Untouched manager (manager.apply (.mutate id task)) := by
  have tasks : ∀ other,
      ((manager.apply (.mutate id task)).tasks other).isSome =
        (manager.tasks other).isSome := by
    intro other
    unfold apply
    by_cases same : other = id
    · simp [same]
    · simp [same]
  constructor
  · exact tasks
  · rfl
  · exact fun _ inside => Or.inl inside
  · constructor
    · exact indexed.snapshot
    · intro other gid found
      rw [tasks]
      exact indexed.stored other gid found
    · exact indexed.named
    · exact indexed.legacy
    · intro other gid found
      rw [tasks]
      exact indexed.legacyStored other gid found

theorem unstored_previousGids (manager : TaskManager) (id : String) :
    ((manager.deindex id).deleteTask id).previousGids id = [] := by
  have gids : ((manager.deindex id).deleteTask id).indexedGids id = [] :=
    if_pos rfl
  have legacy : ((manager.deindex id).deleteTask id).indexedLegacyGids id =
      [] := if_pos rfl
  unfold previousGids
  rw [gids, legacy]
  rfl

/-- The three things a call can do to the owners. -/
inductive Moves (manager : TaskManager) (operation : Operation)
    (next : TaskManager) : Prop where
  | rewrites (id : String) (written : Option DownloadTask)
      (writes : operation.writes manager = some (id, written))
      (rewritten : Rewritten manager next id written)
  | keeps (quiet : operation.writes manager = none)
      (untouched : Untouched manager next)
  | clears (cleared : operation = .clear) (empty : next = {})

theorem Indexed.rollback_moves (indexed : Indexed manager)
    (id engineTaskId : String) (replacement : Option DownloadTask) :
    Moves manager (.rollback id engineTaskId replacement)
      (manager.rollbackReservedEngineTaskOwner id engineTaskId
        replacement).2 := by
  unfold rollbackReservedEngineTaskOwner
  by_cases owned : engineTaskId ∈ manager.reservedEngineGids ∧
      manager.engineIndex engineTaskId = some id
  · have accepted : ¬(engineTaskId ∉ manager.reservedEngineGids ∨
        manager.engineIndex engineTaskId ≠ some id) := by tauto
    rw [if_neg accepted]
    have unstored := indexed.unstored id
    apply Moves.rewrites id replacement
    · exact if_pos owned
    · apply Rewritten.withReserved
      cases replacement with
      | none => exact unstored
      | some task =>
          have named := indexed.named id engineTaskId owned.2
          have stored := unstored.indexed.store_rewritten named task true
          constructor
          · intro other
            show (((manager.deindex id).deleteTask id).store id task
              true).tasks other = _
            rw [stored.tasks, unstored.tasks]
            by_cases same : other = id
            · rw [if_pos same, if_pos same]
            · rw [if_neg same, if_neg same, if_neg same]
          · intro gid
            have gone : ((manager.deindex id).deleteTask id).engineIndex gid ≠
                some id := indexed.deindex_ne id gid
            have index := stored.index gid
            rw [unstored.indexed.deindex_index, if_neg gone] at index
            exact index
          · intro gid inside
            obtain ⟨absent, shielded⟩ := stored.retired gid inside
            refine ⟨absent, Or.inl ?_⟩
            rcases shielded with earlier | dropped
            · exact earlier
            · rw [unstored_previousGids] at dropped
              cases dropped
          · exact stored.indexed
  · have refused : engineTaskId ∉ manager.reservedEngineGids ∨
        manager.engineIndex engineTaskId ≠ some id := by tauto
    rw [if_pos refused]
    exact Moves.keeps (if_neg owned) indexed.untouched

theorem Indexed.apply_moves (indexed : Indexed manager)
    {operation : Operation} (legal : operation.Legal manager) :
    Moves manager operation (manager.apply operation) := by
  cases operation with
  | set id task =>
      exact Moves.rewrites id (some task) rfl
        (indexed.store_rewritten legal task true)
  | remove id =>
      exact Moves.rewrites id none rfl (indexed.remove_rewritten id)
  | clear => exact Moves.clears rfl rfl
  | reserve engineTaskId =>
      apply Moves.keeps rfl
      show Untouched manager
        (manager.keepOnError (manager.reserveEngineTaskId engineTaskId))
      unfold reserveEngineTaskId
      split
      · exact indexed.untouched
      · exact indexed.untouched.withReserved _
  | release engineTaskId =>
      exact Moves.keeps rfl (indexed.untouched.withReserved _)
  | retireReservation engineTaskId =>
      exact Moves.keeps rfl (indexed.retireReservation_untouched legal)
  | setReservedOwner id task engineTaskId =>
      show Moves manager _ (manager.keepOnError
        (manager.setReservedEngineTaskOwner id task engineTaskId))
      unfold setReservedEngineTaskOwner
      by_cases reserved : engineTaskId ∈ manager.reservedEngineGids
      · rw [if_neg (not_not_intro reserved)]
        by_cases owned : engineTaskId ∈ collectTaskGids task
        · rw [if_neg (not_not_intro owned)]
          exact Moves.rewrites id (some task) (if_pos ⟨reserved, owned⟩)
            (indexed.store_rewritten legal task false)
        · rw [if_pos owned]
          exact Moves.keeps (if_neg fun both => owned both.2)
            indexed.untouched
      · rw [if_pos reserved]
        exact Moves.keeps (if_neg fun both => reserved both.1)
          indexed.untouched
  | rollback id engineTaskId replacement =>
      exact indexed.rollback_moves id engineTaskId replacement
  | mutate id task =>
      exact Moves.keeps rfl (indexed.mutate_untouched id task)

theorem Indexed.apply (indexed : Indexed manager) {operation : Operation}
    (legal : operation.Legal manager) :
    Indexed (manager.apply operation) := by
  rcases indexed.apply_moves legal with
    ⟨_, _, _, rewritten⟩ | ⟨_, untouched⟩ | ⟨_, empty⟩
  · exact rewritten.indexed
  · exact untouched.indexed
  · rw [empty]
    exact indexed_clear

end TaskManager

/-! ## What a step may lose -/

/-- The step takes an engine id from its owner: everything is cleared, the
owner is deleted or registered without the id, or another task is registered
with it. -/
def Operation.Takes (manager : TaskManager) (operation : Operation)
    (id gid : String) : Prop :=
  operation = .clear ∨
    ∃ writer written, operation.writes manager = some (writer, written) ∧
      (writer = id ∧ gid ∉ ownedGids written ∨
        writer ≠ id ∧ gid ∈ ownedGids written)

def Operation.isRollback : Operation → Bool
  | .rollback _ _ _ => true
  | _ => false

/-- The step retires an id that its task quarantined or owned and that the
index gives to another task. -/
def Operation.ShedsForeign (manager : TaskManager) (operation : Operation) :
    Prop :=
  operation.isRollback = false ∧
    ∃ writer written gid other,
      operation.writes manager = some (writer, written) ∧
      gid ∈ manager.previousGids writer ∧ gid ∉ ownedGids written ∧
      manager.engineIndex gid = some other ∧ other ≠ writer

def Operation.EndsReservation (gid : String) : Operation → Prop
  | .release engineTaskId => engineTaskId = gid
  | .retireReservation engineTaskId => engineTaskId = gid
  | .rollback _ engineTaskId replacement =>
      engineTaskId = gid ∨ gid ∈ ownedGids replacement
  | .set _ task => gid ∈ collectTaskGids task
  | .clear => True
  | _ => False

namespace TaskManager

theorem Indexed.apply_owner (indexed : Indexed manager)
    {operation : Operation} (legal : operation.Legal manager)
    {id gid : String} (owned : manager.engineIndex gid = some id)
    (kept : ¬operation.Takes manager id gid) :
    (manager.apply operation).engineIndex gid = some id := by
  rcases indexed.apply_moves legal with
    ⟨writer, written, writes, rewritten⟩ | ⟨_, untouched⟩ | ⟨cleared, _⟩
  · rw [rewritten.index]
    by_cases same : writer = id
    · subst same
      have names : gid ∈ ownedGids written := by
        by_contra absent
        exact kept (Or.inr
          ⟨writer, written, writes, Or.inl ⟨rfl, absent⟩⟩)
      rw [if_pos names]
    · have foreign : gid ∉ ownedGids written := by
        intro names
        exact kept (Or.inr
          ⟨writer, written, writes, Or.inr ⟨same, names⟩⟩)
      have stays : manager.engineIndex gid ≠ some writer := by
        rw [owned]
        intro equal
        exact same (Option.some.inj equal).symm
      rw [if_neg foreign, indexed.deindex_index, if_neg stays]
      exact owned
  · rw [untouched.index]
    exact owned
  · exact absurd (Or.inl cleared) kept

/-- A rollback retires nothing. -/
theorem Indexed.rollback_retired (indexed : Indexed manager)
    {id engineTaskId gid : String} {replacement : Option DownloadTask}
    (inside : gid ∈ (manager.rollbackReservedEngineTaskOwner id engineTaskId
      replacement).2.retiredEngineGids) :
    gid ∈ manager.retiredEngineGids := by
  unfold rollbackReservedEngineTaskOwner at inside
  by_cases owned : engineTaskId ∈ manager.reservedEngineGids ∧
      manager.engineIndex engineTaskId = some id
  · have accepted : ¬(engineTaskId ∉ manager.reservedEngineGids ∨
        manager.engineIndex engineTaskId ≠ some id) := by tauto
    rw [if_neg accepted] at inside
    cases replacement with
    | none => exact inside
    | some task =>
        have named := indexed.named id engineTaskId owned.2
        have stored := (indexed.unstored id).indexed.store_rewritten named
          task true
        rcases (stored.retired gid inside).2 with earlier | dropped
        · exact earlier
        · rw [unstored_previousGids] at dropped
          cases dropped
  · have refused : engineTaskId ∉ manager.reservedEngineGids ∨
        manager.engineIndex engineTaskId ≠ some id := by tauto
    rw [if_pos refused] at inside
    exact inside

/-- No owned id is retired. -/
def Shielded (manager : TaskManager) : Prop :=
  ∀ gid, gid ∈ manager.retiredEngineGids → manager.engineIndex gid = none

theorem Indexed.deindex_none (indexed : Indexed manager) {gid : String}
    (id : String) (unowned : manager.engineIndex gid = none) :
    (manager.deindex id).engineIndex gid = none := by
  rw [indexed.deindex_index, unowned]
  rfl

theorem Indexed.apply_shielded (indexed : Indexed manager)
    {operation : Operation} (legal : operation.Legal manager)
    (shielded : Shielded manager)
    (own : ¬operation.ShedsForeign manager) :
    Shielded (manager.apply operation) := by
  intro gid inside
  rcases indexed.apply_moves legal with
    ⟨writer, written, writes, rewritten⟩ | ⟨_, untouched⟩ | ⟨_, empty⟩
  · obtain ⟨absent, source⟩ := rewritten.retired gid inside
    rw [rewritten.index, if_neg absent]
    by_cases rollback : operation.isRollback = false
    · rcases source with earlier | dropped
      · exact indexed.deindex_none writer (shielded gid earlier)
      · rw [indexed.deindex_index]
        by_cases owned : manager.engineIndex gid = some writer
        · rw [if_pos owned]
        · rw [if_neg owned]
          cases found : manager.engineIndex gid with
          | none => rfl
          | some other =>
              have foreign : other ≠ writer := by
                rintro rfl
                exact owned found
              exact absurd
                ⟨rollback, writer, written, gid, other, writes, dropped,
                  absent, found, foreign⟩ own
    · cases operation with
      | rollback id engineTaskId replacement =>
          exact indexed.deindex_none writer
            (shielded gid (indexed.rollback_retired inside))
      | _ => exact absurd rfl rollback
  · rw [untouched.index]
    rcases untouched.retired gid inside with earlier | unowned
    · exact shielded gid earlier
    · exact unowned
  · rw [empty] at inside
    cases inside

theorem Indexed.apply_reserved (indexed : Indexed manager)
    {operation : Operation} (legal : operation.Legal manager)
    {gid : String} (reserved : gid ∈ manager.reservedEngineGids)
    (kept : ¬operation.EndsReservation gid) :
    gid ∈ (manager.apply operation).reservedEngineGids := by
  cases operation with
  | set id task =>
      show gid ∈ (manager.store id task true).reservedEngineGids
      rw [indexed.store_reserved legal]
      exact ⟨reserved, fun both => kept both.2⟩
  | remove id =>
      show gid ∈ (manager.remove id).2.reservedEngineGids
      rw [indexed.remove_eq]
      exact reserved
  | clear => exact absurd trivial kept
  | reserve engineTaskId =>
      show gid ∈ (manager.keepOnError
        (manager.reserveEngineTaskId engineTaskId)).reservedEngineGids
      unfold reserveEngineTaskId
      split
      · exact reserved
      · exact mem_addToSet.mpr (Or.inl reserved)
  | release engineTaskId =>
      exact mem_deleteFromSet.mpr ⟨reserved, fun same => kept same.symm⟩
  | retireReservation engineTaskId =>
      show gid ∈ (manager.retireEngineTaskIdReservation
        engineTaskId).2.reservedEngineGids
      unfold retireEngineTaskIdReservation
      by_cases released :
          (manager.releaseEngineTaskIdReservation engineTaskId).1 = true
      · rw [if_pos released]
        exact mem_deleteFromSet.mpr ⟨reserved, fun same => kept same.symm⟩
      · rw [if_neg released]
        exact reserved
  | setReservedOwner id task engineTaskId =>
      show gid ∈ (manager.keepOnError (manager.setReservedEngineTaskOwner id
        task engineTaskId)).reservedEngineGids
      unfold setReservedEngineTaskOwner
      split
      · exact reserved
      · split
        · exact reserved
        · show gid ∈ (manager.store id task false).reservedEngineGids
          rw [indexed.store_reserved legal]
          exact ⟨reserved, fun both => Bool.false_ne_true both.1⟩
  | rollback id engineTaskId replacement =>
      have different : gid ≠ engineTaskId :=
        fun same => kept (Or.inl same.symm)
      show gid ∈ (manager.rollbackReservedEngineTaskOwner id engineTaskId
        replacement).2.reservedEngineGids
      unfold rollbackReservedEngineTaskOwner
      by_cases refused : engineTaskId ∉ manager.reservedEngineGids ∨
          manager.engineIndex engineTaskId ≠ some id
      · rw [if_pos refused]
        exact reserved
      · rw [if_neg refused]
        apply mem_deleteFromSet.mpr
        refine ⟨?_, different⟩
        cases replacement with
        | none => exact reserved
        | some task =>
            have owned : manager.engineIndex engineTaskId = some id := by
              tauto
            have named := indexed.named id engineTaskId owned
            have stored := (indexed.unstored id).indexed.store_reserved named
              task true gid
            exact stored.mpr ⟨reserved, fun both => kept (Or.inr both.2)⟩
  | mutate id task => exact reserved

end TaskManager

/-! ## Runs -/

/-- A property of every step of a run from an empty manager. -/
def EveryStep (property : TaskManager → Operation → Prop)
    (operations : List Operation) : Prop :=
  ∀ before operation after, operations = before ++ operation :: after →
    property (TaskManager.run {} before) operation

namespace TaskManager

theorem EveryStep.front {property : TaskManager → Operation → Prop}
    {before after : List Operation}
    (every : EveryStep property (before ++ after)) :
    EveryStep property before := by
  intro first operation rest split
  apply every first operation (rest ++ after)
  rw [split]
  simp

def StepsFrom (property : TaskManager → Operation → Prop)
    (manager : TaskManager) : List Operation → Prop
  | [] => True
  | operation :: rest => property manager operation ∧
      StepsFrom property (manager.apply operation) rest

theorem StepsFrom.step {property : TaskManager → Operation → Prop}
    {manager : TaskManager} {before after : List Operation}
    {operation : Operation}
    (steps : StepsFrom property manager (before ++ operation :: after)) :
    property (manager.run before) operation := by
  induction before generalizing manager with
  | nil => exact steps.1
  | cons first rest induction => exact induction steps.2

theorem StepsFrom.every {property : TaskManager → Operation → Prop}
    {operations : List Operation}
    (steps : StepsFrom property {} operations) :
    EveryStep property operations := by
  rintro before operation after rfl
  exact steps.step

theorem run_concat (operations : List Operation) (operation : Operation) :
    run {} (operations ++ [operation]) =
      (run {} operations).apply operation := by
  unfold run
  rw [List.foldl_append]
  rfl

theorem run_indexed (operations : List Operation)
    (legal : EveryStep (fun manager operation => operation.Legal manager)
      operations) : Indexed (run {} operations) := by
  induction operations using List.reverseRecOn with
  | nil => exact indexed_clear
  | append_singleton before operation induction =>
      rw [run_concat]
      exact (induction (EveryStep.front legal)).apply
        (legal before operation [] rfl)

theorem run_shielded (operations : List Operation)
    (legal : EveryStep (fun manager operation => operation.Legal manager)
      operations)
    (own : EveryStep
      (fun manager operation => ¬operation.ShedsForeign manager)
      operations) : Shielded (run {} operations) := by
  induction operations using List.reverseRecOn with
  | nil => exact fun gid inside => absurd inside List.not_mem_nil
  | append_singleton before operation induction =>
      rw [run_concat]
      exact (run_indexed before (EveryStep.front legal)).apply_shielded
        (legal before operation [] rfl)
        (induction (EveryStep.front legal) (EveryStep.front own))
        (own before operation [] rfl)

/-- An owner stays one while no step takes the id from it. -/
theorem run_owner (before after : List Operation) (operation : Operation)
    (legal : EveryStep (fun manager operation => operation.Legal manager)
      (before ++ operation :: after))
    {id gid : String} {task : DownloadTask}
    (writes : operation.writes (run {} before) = some (id, some task))
    (names : gid ∈ collectTaskGids task)
    (kept : ∀ between next rest, after = between ++ next :: rest →
      ¬next.Takes (run {} (before ++ operation :: between)) id gid) :
    (run {} (before ++ operation :: after)).engineIndex gid = some id := by
  induction after using List.reverseRecOn with
  | nil =>
      have indexed := run_indexed before (EveryStep.front legal)
      rw [run_concat]
      rcases indexed.apply_moves (legal before operation [] rfl) with
        ⟨writer, written, found, rewritten⟩ | ⟨quiet, _⟩ | ⟨cleared, _⟩
      · rw [writes] at found
        cases found
        rw [rewritten.index]
        exact if_pos names
      · rw [writes] at quiet
        cases quiet
      · rw [cleared] at writes
        cases writes
  | append_singleton between next induction =>
      have split : before ++ operation :: (between ++ [next]) =
          (before ++ operation :: between) ++ [next] := by simp
      rw [split] at legal ⊢
      have earlier := EveryStep.front legal
      rw [run_concat]
      apply (run_indexed _ earlier).apply_owner (legal _ next [] rfl)
      · apply induction earlier
        intro first step rest equal
        apply kept first step (rest ++ [next])
        rw [equal]
        simp
      · exact kept between next [] rfl

/-- The state of the indexes after any legal run. -/
theorem run_indexes (operations : List Operation)
    (legal : EveryStep (fun manager operation => operation.Legal manager)
      operations) :
    (∀ id gid, gid ∈ (run {} operations).indexedGids id ↔
      (run {} operations).engineIndex gid = some id) ∧
    (∀ id gid, (run {} operations).engineIndex gid = some id →
      ((run {} operations).tasks id).isSome) ∧
    (∀ before operation after id task gid,
      operations = before ++ operation :: after →
      operation.writes (run {} before) = some (id, some task) →
      gid ∈ collectTaskGids task →
      (∀ between next rest, after = between ++ next :: rest →
        ¬next.Takes (run {} (before ++ operation :: between)) id gid) →
      (run {} operations).engineIndex gid = some id ∧
        (run {} operations).getByEngineTaskId gid =
          (run {} operations).tasks id) ∧
    (EveryStep (fun manager operation => ¬operation.ShedsForeign manager)
        operations →
      ∀ id gid, (run {} operations).engineIndex gid = some id →
        (run {} operations).legacyGidOwners gid = [] →
        gid ∉ (run {} operations).reservedEngineGids →
        (run {} operations).isEngineTaskIdRetired gid = false) ∧
    EveryStep
      (fun manager operation => ∀ gid, gid ∈ manager.reservedEngineGids →
        gid ∉ (manager.apply operation).reservedEngineGids →
        operation.EndsReservation gid)
      operations := by
  have indexed := run_indexed operations legal
  refine ⟨indexed.snapshot, indexed.stored, ?_, ?_, ?_⟩
  · intro before operation after id task gid split writes names kept
    have owner : (run {} operations).engineIndex gid = some id := by
      rw [split] at legal ⊢
      exact run_owner before after operation legal writes names kept
    refine ⟨owner, ?_⟩
    unfold getByEngineTaskId
    rw [owner]
    rfl
  · intro own id gid owned quiet unreserved
    have shielded := run_shielded operations legal own
    have active : gid ∉ (run {} operations).retiredEngineGids := by
      intro retired
      rw [shielded gid retired] at owned
      cases owned
    unfold isEngineTaskIdRetired
    simp [quiet, unreserved, active]
  · intro before operation after split gid reserved lost
    by_contra kept
    have earlier : EveryStep
        (fun manager operation => operation.Legal manager) before := by
      rw [split] at legal
      exact EveryStep.front legal
    exact lost ((run_indexed before earlier).apply_reserved
      (legal before operation after split) reserved kept)

/-- A task with one instance, whose migration is inactive or not. -/
def taskWith (id gid : String) (legacyInactive : Bool) : DownloadTask where
  id := id
  instances :=
    [{ gid := some gid
       legacyInactive := legacyInactive }]
  engineTaskId := gid

theorem moved_indexes :
    (run {}
      [.reserve "2", .set "a" (taskWith "a" "1" false),
        .set "b" (taskWith "b" "1" false)]).engineIndex "1" = some "b" ∧
    (run {}
      [.reserve "2", .set "a" (taskWith "a" "1" false),
        .set "b" (taskWith "b" "1" false)]).isEngineTaskIdRetired "1" =
      false := by
  have indexes := run_indexes
    [.reserve "2", .set "a" (taskWith "a" "1" false),
      .set "b" (taskWith "b" "1" false)]
    (StepsFrom.every ⟨trivial, (by decide : "a" ≠ ""),
      (by decide : "b" ≠ ""), trivial⟩)
  obtain ⟨-, -, last, active, -⟩ := indexes
  have owner := last [.reserve "2", .set "a" (taskWith "a" "1" false)]
    (.set "b" (taskWith "b" "1" false)) [] "b" (taskWith "b" "1" false) "1"
    rfl rfl (by decide +kernel) (by
      intro between next rest split
      simp at split)
  refine ⟨owner.1, active ?_ "b" "1" owner.1 (by decide +kernel)
    (by decide +kernel)⟩
  apply StepsFrom.every
  refine ⟨?_, ?_, ?_, trivial⟩
  · rintro ⟨-, writer, written, gid, other, writes, -⟩
    cases writes
  · rintro ⟨-, writer, written, gid, other, writes, shed, -⟩
    cases writes
    cases shed
  · rintro ⟨-, writer, written, gid, other, writes, shed, -⟩
    cases writes
    cases shed

/-- Clearing loses a reservation, a task with an empty id keeps its snapshot
when another task takes its id, and deleting a task that quarantines an id
retires the id under its new owner. -/
theorem cleared_reservation :
    "1" ∈ (run {} [.reserve "1"]).reservedEngineGids ∧
      "1" ∉ (run {} [.reserve "1", .clear]).reservedEngineGids ∧
      "1" ∈ (run {}
        [.set "" (taskWith "" "1" false),
          .set "b" (taskWith "b" "1" false)]).indexedGids "" ∧
      (run {}
        [.set "" (taskWith "" "1" false),
          .set "b" (taskWith "b" "1" false)]).engineIndex "1" ≠ some "" ∧
      (run {}
        [.set "a" (taskWith "a" "1" true),
          .set "b" (taskWith "b" "1" false),
          .remove "a"]).engineIndex "1" = some "b" ∧
      (run {}
        [.set "a" (taskWith "a" "1" true),
          .set "b" (taskWith "b" "1" false),
          .remove "a"]).legacyGidOwners "1" = [] ∧
      "1" ∉ (run {}
        [.set "a" (taskWith "a" "1" true),
          .set "b" (taskWith "b" "1" false),
          .remove "a"]).reservedEngineGids ∧
      (run {}
        [.set "a" (taskWith "a" "1" true),
          .set "b" (taskWith "b" "1" false),
          .remove "a"]).isEngineTaskIdRetired "1" = true := by
  decide +kernel

end TaskManager

end Motrix.Task
