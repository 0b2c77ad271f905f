import Mathlib.Data.List.Basic

/-!
# The task manager

The tasks of the process and four indexes over the engine ids they own: the
owner of each id, the ids that the last registration of a task contributed,
the ids reserved for a task to come, and those retired from an owner.  A map
entry that is absent is the empty list, and a set is a list in the order in
which its items were added.
-/

namespace Motrix.Task

/-! ## Tasks -/

/-- An instance of a task, with what the check of its migration record says
and the engine ids that the record names. -/
structure TaskInstance where
  gid : Option String
  legacyInactive : Bool := false
  legacyBtActivation : Option String := none
  legacyHttpActivation : Option String := none
  deriving DecidableEq

structure DownloadTask where
  id : String
  instances : List TaskInstance
  engineTaskId : String
  deriving DecidableEq

def addToSet (items : List String) (item : String) : List String :=
  if item ∈ items then items else items ++ [item]

def toSet (items : List String) : List String :=
  items.foldl addToSet []

def deleteFromSet (items : List String) (item : String) : List String :=
  items.filter (· != item)

/-- Every engine id that a task owns at the moment. -/
def collectTaskGids (task : DownloadTask) : List String :=
  toSet ((task.instances.filterMap (·.gid) ++ [task.engineTaskId]).filter
    (· != ""))

def isHexDigit (digit : Char) : Bool :=
  ('a' ≤ digit && digit ≤ 'f') || ('0' ≤ digit && digit ≤ '9')

def isEngineGid (text : String) : Bool :=
  text.toList.length == 16 && text.toList.all isHexDigit

def activationGids (taskInstance : TaskInstance) : List String :=
  ([taskInstance.legacyBtActivation,
    taskInstance.legacyHttpActivation].filterMap id).filter isEngineGid

/-- An inactive migration record quarantines every id it knows. -/
def getLegacyQuarantinedGids (task : DownloadTask) : List String :=
  if task.instances.any (·.legacyInactive) then
    toSet (task.instances.flatMap fun taskInstance =>
      taskInstance.gid.toList.filter (· != "") ++
        activationGids taskInstance)
  else
    []

/-! ## The manager -/

structure TaskManager where
  legacyGidOwners : String → List String := fun _ => []
  indexedLegacyGids : String → List String := fun _ => []
  tasks : String → Option DownloadTask := fun _ => none
  engineIndex : String → Option String := fun _ => none
  indexedGids : String → List String := fun _ => []
  reservedEngineGids : List String := []
  retiredEngineGids : List String := []

def maxRetiredEngineGids : Nat := 4096

/-- The oldest retired ids make room. -/
def retireGid (retired : List String) (gid : String) : List String :=
  if gid = "" ∨ gid ∈ retired then
    retired
  else
    let added := retired ++ [gid]
    added.drop (added.length - maxRetiredEngineGids)

namespace TaskManager

def retireEngineGid (manager : TaskManager) (gid : String) : TaskManager :=
  { manager with
    retiredEngineGids := retireGid manager.retiredEngineGids gid }

/-- Drops what the last registration of a task contributed.  An id that went
to another task since stays with it. -/
def deindex (manager : TaskManager) (id : String) : TaskManager :=
  { manager with
    legacyGidOwners := fun gid =>
      if gid ∈ manager.indexedLegacyGids id then
        deleteFromSet (manager.legacyGidOwners gid) id
      else
        manager.legacyGidOwners gid
    indexedLegacyGids := fun other =>
      if other = id then [] else manager.indexedLegacyGids other
    engineIndex := fun gid =>
      if gid ∈ manager.indexedGids id ∧ manager.engineIndex gid = some id then
        none
      else
        manager.engineIndex gid
    indexedGids := fun other =>
      if other = id then [] else manager.indexedGids other }

def previousGids (manager : TaskManager) (id : String) : List String :=
  toSet (manager.indexedGids id ++ manager.indexedLegacyGids id)

def quarantine (id : String) (manager : TaskManager) (gid : String) :
    TaskManager :=
  { manager with
    legacyGidOwners := fun other =>
      if other = gid then addToSet (manager.legacyGidOwners other) id
      else manager.legacyGidOwners other }

/-- An id goes to a task, and away from the task that had it. -/
def claimGid (id : String) (claimReservations : Bool)
    (manager : TaskManager) (gid : String) : TaskManager :=
  { manager with
    reservedEngineGids :=
      if claimReservations then deleteFromSet manager.reservedEngineGids gid
      else manager.reservedEngineGids
    retiredEngineGids := deleteFromSet manager.retiredEngineGids gid
    indexedGids := fun other =>
      if manager.engineIndex gid = some other ∧ other ≠ "" ∧ other ≠ id then
        deleteFromSet (manager.indexedGids other) gid
      else
        manager.indexedGids other
    engineIndex := fun other =>
      if other = gid then some id else manager.engineIndex other }

def store (manager : TaskManager) (id : String) (task : DownloadTask)
    (claimReservations : Bool) : TaskManager :=
  let previous := manager.previousGids id
  let cleared := if (manager.tasks id).isSome then manager.deindex id
    else manager
  let stored := { cleared with
    tasks := fun other => if other = id then some task
      else cleared.tasks other }
  let legacyGids := getLegacyQuarantinedGids task
  let quarantined := legacyGids.foldl (quarantine id) stored
  let recorded := { quarantined with
    indexedLegacyGids := fun other =>
      if other = id ∧ legacyGids ≠ [] then legacyGids
      else quarantined.indexedLegacyGids other }
  let gids := collectTaskGids task
  let dropped := previous.filter fun gid => !gids.contains gid
  let retired := dropped.foldl retireEngineGid recorded
  let claimed := gids.foldl (claimGid id claimReservations) retired
  { claimed with
    indexedGids := fun other =>
      if other = id ∧ gids ≠ [] then gids else claimed.indexedGids other }

def set (manager : TaskManager) (id : String) (task : DownloadTask) :
    TaskManager :=
  manager.store id task true

def add (manager : TaskManager) (task : DownloadTask) : TaskManager :=
  manager.set task.id task

def setReservedEngineTaskOwner (manager : TaskManager) (id : String)
    (task : DownloadTask) (engineTaskId : String) :
    Except String TaskManager :=
  if engineTaskId ∉ manager.reservedEngineGids then
    .error ("Engine task id is not reserved: " ++ engineTaskId)
  else if engineTaskId ∉ collectTaskGids task then
    .error ("Reserved engine task id is not owned by task " ++ id ++ ": " ++
      engineTaskId)
  else
    .ok (manager.store id task false)

def deleteTask (manager : TaskManager) (id : String) : TaskManager :=
  { manager with
    tasks := fun other => if other = id then none else manager.tasks other }

def rollbackReservedEngineTaskOwner (manager : TaskManager) (id : String)
    (engineTaskId : String) (replacement : Option DownloadTask) :
    Bool × TaskManager :=
  if engineTaskId ∉ manager.reservedEngineGids ∨
      manager.engineIndex engineTaskId ≠ some id then
    (false, manager)
  else
    let deleted := (manager.deindex id).deleteTask id
    let replaced := match replacement with
      | some task => deleted.set id task
      | none => deleted
    (true,
      { replaced with
        reservedEngineGids :=
          deleteFromSet replaced.reservedEngineGids engineTaskId })

def remove (manager : TaskManager) (id : String) : Bool × TaskManager :=
  let previous := manager.previousGids id
  let cleared := if (manager.tasks id).isSome then manager.deindex id
    else manager
  let retired := previous.foldl retireEngineGid cleared
  ((retired.tasks id).isSome, retired.deleteTask id)

def clear (_ : TaskManager) : TaskManager :=
  {}

def getByEngineTaskId (manager : TaskManager) (engineTaskId : String) :
    Option DownloadTask :=
  (manager.engineIndex engineTaskId).bind manager.tasks

def isEngineTaskIdRetired (manager : TaskManager) (engineTaskId : String) :
    Bool :=
  manager.legacyGidOwners engineTaskId ≠ [] ||
    manager.reservedEngineGids.contains engineTaskId ||
    manager.retiredEngineGids.contains engineTaskId

def reserveEngineTaskId (manager : TaskManager) (engineTaskId : String) :
    Except String TaskManager :=
  if engineTaskId = "" ∨ (manager.engineIndex engineTaskId).isSome ∨
      manager.legacyGidOwners engineTaskId ≠ [] ∨
      engineTaskId ∈ manager.reservedEngineGids ∨
      engineTaskId ∈ manager.retiredEngineGids then
    .error ("Engine task id is not available: " ++ engineTaskId)
  else
    .ok
      { manager with
        reservedEngineGids :=
          addToSet manager.reservedEngineGids engineTaskId }

def releaseEngineTaskIdReservation (manager : TaskManager)
    (engineTaskId : String) : Bool × TaskManager :=
  (manager.reservedEngineGids.contains engineTaskId,
    { manager with
      reservedEngineGids :=
        deleteFromSet manager.reservedEngineGids engineTaskId })

def retireEngineTaskIdReservation (manager : TaskManager)
    (engineTaskId : String) : Bool × TaskManager :=
  let released := manager.releaseEngineTaskIdReservation engineTaskId
  if released.1 then (true, released.2.retireEngineGid engineTaskId)
  else (false, manager)

end TaskManager

/-! ## Operations -/

/-- The calls of a manager, and changes of a stored task in its place. -/
inductive Operation where
  | set (id : String) (task : DownloadTask)
  | remove (id : String)
  | clear
  | reserve (engineTaskId : String)
  | release (engineTaskId : String)
  | retireReservation (engineTaskId : String)
  | setReservedOwner (id : String) (task : DownloadTask)
      (engineTaskId : String)
  | rollback (id engineTaskId : String) (replacement : Option DownloadTask)
  | mutate (id : String) (task : DownloadTask)

namespace TaskManager

/-- A call that throws leaves the manager as it was. -/
def keepOnError (manager : TaskManager) :
    Except String TaskManager → TaskManager
  | .error _ => manager
  | .ok next => next

def apply (manager : TaskManager) : Operation → TaskManager
  | .set id task => manager.set id task
  | .remove id => (manager.remove id).2
  | .clear => manager.clear
  | .reserve engineTaskId =>
      manager.keepOnError (manager.reserveEngineTaskId engineTaskId)
  | .release engineTaskId =>
      (manager.releaseEngineTaskIdReservation engineTaskId).2
  | .retireReservation engineTaskId =>
      (manager.retireEngineTaskIdReservation engineTaskId).2
  | .setReservedOwner id task engineTaskId =>
      manager.keepOnError
        (manager.setReservedEngineTaskOwner id task engineTaskId)
  | .rollback id engineTaskId replacement =>
      (manager.rollbackReservedEngineTaskOwner id engineTaskId replacement).2
  | .mutate id task =>
      { manager with
        tasks := fun other =>
          if other = id then (manager.tasks other).map fun _ => task
          else manager.tasks other }

def run (manager : TaskManager) (operations : List Operation) :
    TaskManager :=
  operations.foldl apply manager

end TaskManager

end Motrix.Task

/-!
# The indexes of the task manager

The owner index and the snapshots of the tasks say the same, whatever was
called and however tasks changed in their place.
-/

namespace Motrix.Task

/-! ## Sets -/

theorem mem_addToSet {items : List String} {item other : String} :
    other ∈ addToSet items item ↔ other ∈ items ∨ other = item := by
  unfold addToSet
  by_cases present : item ∈ items
  · rw [if_pos present]
    constructor
    · exact Or.inl
    · rintro (earlier | rfl)
      · exact earlier
      · exact present
  · rw [if_neg present, List.mem_append, List.mem_singleton]

theorem mem_deleteFromSet {items : List String} {item other : String} :
    other ∈ deleteFromSet items item ↔ other ∈ items ∧ other ≠ item := by
  unfold deleteFromSet
  rw [List.mem_filter, bne_iff_ne]

theorem mem_retireGid {retired : List String} {gid other : String}
    (member : other ∈ retireGid retired gid) :
    other ∈ retired ∨ other = gid := by
  unfold retireGid at member
  by_cases known : gid = "" ∨ gid ∈ retired
  · rw [if_pos known] at member
    exact Or.inl member
  · rw [if_neg known] at member
    have added := List.mem_of_mem_drop member
    rw [List.mem_append, List.mem_singleton] at added
    exact added

theorem mem_foldl_retireGid {gids retired : List String} {other : String}
    (member : other ∈ gids.foldl retireGid retired) :
    other ∈ retired ∨ other ∈ gids := by
  induction gids generalizing retired with
  | nil => exact Or.inl member
  | cons gid rest induction =>
      rcases induction member with before | later
      · rcases mem_retireGid before with earlier | rfl
        · exact Or.inl earlier
        · exact Or.inr List.mem_cons_self
      · exact Or.inr (List.mem_cons_of_mem gid later)

/-! ## The indexes -/

/-- The engine ids that what is stored under an id owns. -/
def ownedGids : Option DownloadTask → List String
  | none => []
  | some task => collectTaskGids task

namespace TaskManager

/-- The index and the snapshots are inverse to each other, every owner is
stored, and so are the tasks that quarantine ids. -/
structure Indexed (manager : TaskManager) : Prop where
  snapshot : ∀ id gid, gid ∈ manager.indexedGids id ↔
    manager.engineIndex gid = some id
  stored : ∀ id gid, manager.engineIndex gid = some id →
    (manager.tasks id).isSome
  named : ∀ id gid, manager.engineIndex gid = some id → id ≠ ""
  legacy : ∀ id gid, gid ∈ manager.indexedLegacyGids id ↔
    id ∈ manager.legacyGidOwners gid
  legacyStored : ∀ id gid, gid ∈ manager.indexedLegacyGids id →
    (manager.tasks id).isSome

theorem indexed_clear : Indexed {} where
  snapshot _ _ := by simp
  stored _ _ found := by simp at found
  named _ _ found := by simp at found
  legacy _ _ := by simp
  legacyStored _ _ found := by simp at found

variable {manager : TaskManager}

/-- Reserved and retired ids are no part of what the indexes agree on. -/
theorem Indexed.withShields (indexed : Indexed manager)
    (reserved retired : List String) :
    Indexed
      { manager with
        reservedEngineGids := reserved
        retiredEngineGids := retired } where
  snapshot := indexed.snapshot
  stored := indexed.stored
  named := indexed.named
  legacy := indexed.legacy
  legacyStored := indexed.legacyStored

/-! ## Parts of a registration -/

theorem retireAll_eq (gids : List String) (manager : TaskManager) :
    gids.foldl retireEngineGid manager =
      { manager with
        retiredEngineGids := gids.foldl retireGid manager.retiredEngineGids } :=
    by
  induction gids generalizing manager with
  | nil => rfl
  | cons gid rest induction =>
      rw [List.foldl_cons, induction]
      rfl

/-- Only the owners of quarantined ids change. -/
theorem quarantineAll_eq (id : String) (gids : List String)
    (manager : TaskManager) :
    ∃ owners, gids.foldl (quarantine id) manager =
        { manager with legacyGidOwners := owners } ∧
      ∀ gid other, other ∈ owners gid ↔
        other ∈ manager.legacyGidOwners gid ∨ other = id ∧ gid ∈ gids := by
  induction gids generalizing manager with
  | nil => exact ⟨manager.legacyGidOwners, rfl, by simp⟩
  | cons first rest induction =>
      obtain ⟨owners, equal, members⟩ := induction (manager.quarantine id first)
      refine ⟨owners, equal, ?_⟩
      intro gid other
      have step : (manager.quarantine id first).legacyGidOwners gid =
          if gid = first then addToSet (manager.legacyGidOwners gid) id
          else manager.legacyGidOwners gid := rfl
      rw [members, List.mem_cons, step]
      by_cases same : gid = first
      · rw [if_pos same, mem_addToSet]
        tauto
      · rw [if_neg same]
        tauto

/-- The indexes beside those of a task that is being registered. -/
structure OthersIndexed (manager : TaskManager) (id : String) : Prop where
  snapshot : ∀ other gid, other ≠ id →
    (gid ∈ manager.indexedGids other ↔ manager.engineIndex gid = some other)
  named : ∀ other gid, manager.engineIndex gid = some other → other ≠ ""

theorem OthersIndexed.claimGid {id : String}
    (others : OthersIndexed manager id) (named : id ≠ "")
    (claimReservations : Bool) (gid : String) :
    OthersIndexed (manager.claimGid id claimReservations gid) id where
  snapshot other item different := by
    have before := others.snapshot other item different
    unfold TaskManager.claimGid
    by_cases had : manager.engineIndex gid = some other
    · have known := others.named other gid had
      by_cases same : item = gid
      · simp [had, known, different, mem_deleteFromSet, same, Ne.symm different]
      · simp [had, known, different, mem_deleteFromSet, same, before]
    · by_cases same : item = gid
      · subst same
        simp [had, before, Ne.symm different]
      · simp [had, same, before]
  named other item found := by
    unfold TaskManager.claimGid at found
    by_cases same : item = gid
    · simp only [if_pos same, Option.some.injEq] at found
      rw [← found]
      exact named
    · simp only [if_neg same] at found
      exact others.named other item found

/-- What a claim of engine ids for a task leaves of the manager. -/
structure Claimed (manager claimed : TaskManager) (id : String)
    (claimReservations : Bool) (gids : List String) : Prop where
  tasks : claimed.tasks = manager.tasks
  owners : claimed.legacyGidOwners = manager.legacyGidOwners
  quarantined : claimed.indexedLegacyGids = manager.indexedLegacyGids
  index : ∀ gid, claimed.engineIndex gid =
    if gid ∈ gids then some id else manager.engineIndex gid
  reserved : ∀ gid, gid ∈ claimed.reservedEngineGids ↔
    gid ∈ manager.reservedEngineGids ∧
      ¬(claimReservations = true ∧ gid ∈ gids)
  retired : ∀ gid, gid ∈ claimed.retiredEngineGids ↔
    gid ∈ manager.retiredEngineGids ∧ gid ∉ gids
  others : OthersIndexed manager id → OthersIndexed claimed id

theorem claimGid_claimed {id : String} (named : id ≠ "")
    (claimReservations : Bool) (gid : String) :
    Claimed manager (manager.claimGid id claimReservations gid) id
      claimReservations [gid] where
  tasks := rfl
  owners := rfl
  quarantined := rfl
  index other := by
    by_cases same : other = gid
    · rw [if_pos (List.mem_singleton.mpr same)]
      exact if_pos same
    · rw [if_neg (fun found => same (List.mem_singleton.mp found))]
      exact if_neg same
  reserved other := by
    unfold claimGid
    cases claimReservations <;> simp [mem_deleteFromSet]
  retired other := by
    rw [List.mem_singleton]
    exact mem_deleteFromSet
  others before := before.claimGid named claimReservations gid

theorem claimAll_claimed {id : String} (named : id ≠ "")
    (claimReservations : Bool) (gids : List String)
    (manager : TaskManager) :
    Claimed manager (gids.foldl (claimGid id claimReservations) manager) id
      claimReservations gids := by
  induction gids generalizing manager with
  | nil =>
      constructor
      · rfl
      · rfl
      · rfl
      · intro gid
        rw [if_neg List.not_mem_nil]
        rfl
      · simp
      · simp
      · exact fun before => before
  | cons gid rest induction =>
      have first := manager.claimGid_claimed named claimReservations gid
      have later := induction (manager.claimGid id claimReservations gid)
      rw [List.foldl_cons]
      constructor
      · rw [later.tasks, first.tasks]
      · rw [later.owners, first.owners]
      · rw [later.quarantined, first.quarantined]
      · intro other
        rw [later.index, first.index]
        by_cases inside : other ∈ rest
        · rw [if_pos inside, if_pos (List.mem_cons_of_mem gid inside)]
        · by_cases same : other = gid
          · subst same
            rw [if_neg inside, if_pos List.mem_cons_self,
              if_pos List.mem_cons_self]
          · have absent : other ∉ gid :: rest := by
              rintro (_ | ⟨_, found⟩)
              · exact same rfl
              · exact inside found
            rw [if_neg inside, if_neg absent,
              if_neg (fun found => same (List.mem_singleton.mp found))]
      · intro other
        rw [later.reserved, first.reserved, List.mem_singleton,
          List.mem_cons]
        tauto
      · intro other
        rw [later.retired, first.retired, List.mem_singleton, List.mem_cons]
        tauto
      · exact fun before => later.others (first.others before)

/-! ## Leaving the indexes -/

theorem Indexed.deindex_index (indexed : Indexed manager) (id gid : String) :
    (manager.deindex id).engineIndex gid =
      if manager.engineIndex gid = some id then none
      else manager.engineIndex gid := by
  have inside := indexed.snapshot id gid
  unfold deindex
  by_cases owned : manager.engineIndex gid = some id
  · rw [if_pos owned]
    exact if_pos ⟨inside.mpr owned, owned⟩
  · rw [if_neg owned]
    exact if_neg fun both => owned both.2

theorem Indexed.deindex_ne (indexed : Indexed manager) (id gid : String) :
    (manager.deindex id).engineIndex gid ≠ some id := by
  rw [indexed.deindex_index]
  by_cases owned : manager.engineIndex gid = some id
  · rw [if_pos owned]
    exact nofun
  · rw [if_neg owned]
    exact owned

theorem Indexed.of_deindex_index (indexed : Indexed manager)
    {id other gid : String}
    (found : (manager.deindex id).engineIndex gid = some other) :
    manager.engineIndex gid = some other ∧ other ≠ id := by
  have different := indexed.deindex_ne id gid
  rw [indexed.deindex_index] at found different
  by_cases owned : manager.engineIndex gid = some id
  · rw [if_pos owned] at found
    cases found
  · rw [if_neg owned] at found different
    refine ⟨found, ?_⟩
    rintro rfl
    exact different found

theorem Indexed.deindex (indexed : Indexed manager) (id : String) :
    Indexed (manager.deindex id) where
  snapshot other gid := by
    by_cases same : other = id
    · have gone := indexed.deindex_ne id gid
      have empty : (manager.deindex id).indexedGids other = [] := if_pos same
      rw [empty, same]
      simp [gone]
    · have kept : (manager.deindex id).indexedGids other =
          manager.indexedGids other := if_neg same
      rw [kept, indexed.snapshot, indexed.deindex_index]
      by_cases owned : manager.engineIndex gid = some id
      · rw [if_pos owned, owned]
        simp [Ne.symm same]
      · rw [if_neg owned]
  stored other gid found := indexed.stored other gid
    (indexed.of_deindex_index found).1
  named other gid found := indexed.named other gid
    (indexed.of_deindex_index found).1
  legacy other gid := by
    have before := indexed.legacy other gid
    unfold TaskManager.deindex
    by_cases same : other = id
    · subst same
      by_cases inside : gid ∈ manager.indexedLegacyGids other
      · simp [inside, mem_deleteFromSet]
      · simp [inside, ← before]
    · by_cases inside : gid ∈ manager.indexedLegacyGids id
      · simp [inside, same, mem_deleteFromSet, before]
      · simp [inside, same, before]
  legacyStored other gid found := by
    by_cases same : other = id
    · have empty : (manager.deindex id).indexedLegacyGids other = [] :=
        if_pos same
      rw [empty] at found
      cases found
    · have kept : (manager.deindex id).indexedLegacyGids other =
          manager.indexedLegacyGids other := if_neg same
      rw [kept] at found
      exact indexed.legacyStored other gid found

/-- A task that is not stored has nothing in the indexes. -/
theorem Indexed.cleared_eq (indexed : Indexed manager) (id : String) :
    (if (manager.tasks id).isSome then manager.deindex id else manager) =
      manager.deindex id := by
  by_cases stored : (manager.tasks id).isSome
  · rw [if_pos stored]
  · rw [if_neg stored]
    have noGids : manager.indexedGids id = [] := by
      rw [List.eq_nil_iff_forall_not_mem]
      intro gid inside
      exact stored
        (indexed.stored id gid ((indexed.snapshot id gid).mp inside))
    have noLegacy : manager.indexedLegacyGids id = [] := by
      rw [List.eq_nil_iff_forall_not_mem]
      intro gid inside
      exact stored (indexed.legacyStored id gid inside)
    have gids : (fun other => if other = id then []
        else manager.indexedGids other) = manager.indexedGids := by
      funext other
      by_cases same : other = id
      · rw [if_pos same, same, noGids]
      · rw [if_neg same]
    have legacy : (fun other => if other = id then []
        else manager.indexedLegacyGids other) =
        manager.indexedLegacyGids := by
      funext other
      by_cases same : other = id
      · rw [if_pos same, same, noLegacy]
      · rw [if_neg same]
    unfold TaskManager.deindex
    rw [gids, legacy, noGids, noLegacy]
    simp

/-! ## A registration -/

/-- What is left of the indexes when what is stored under an id changes. -/
structure Rewritten (manager next : TaskManager) (id : String)
    (written : Option DownloadTask) : Prop where
  tasks : ∀ other, next.tasks other =
    if other = id then written else manager.tasks other
  index : ∀ gid, next.engineIndex gid =
    if gid ∈ ownedGids written then some id
    else (manager.deindex id).engineIndex gid
  retired : ∀ gid, gid ∈ next.retiredEngineGids →
    gid ∉ ownedGids written ∧
      (gid ∈ manager.retiredEngineGids ∨ gid ∈ manager.previousGids id)
  indexed : Indexed next

/-- A registration before it claims the ids of its task. -/
def registration (manager : TaskManager) (id : String)
    (task : DownloadTask) (owners : String → List String) : TaskManager :=
  { manager.deindex id with
    legacyGidOwners := owners
    indexedLegacyGids := fun other =>
      if other = id ∧ getLegacyQuarantinedGids task ≠ [] then
        getLegacyQuarantinedGids task
      else
        (manager.deindex id).indexedLegacyGids other
    tasks := fun other =>
      if other = id then some task else manager.tasks other
    retiredEngineGids :=
      ((manager.previousGids id).filter fun gid =>
        !(collectTaskGids task).contains gid).foldl retireGid
        manager.retiredEngineGids }

theorem Indexed.store_eq (indexed : Indexed manager) (id : String)
    (task : DownloadTask) (claimReservations : Bool) :
    ∃ owners,
      (∀ gid other, other ∈ owners gid ↔
        other ∈ (manager.deindex id).legacyGidOwners gid ∨
          other = id ∧ gid ∈ getLegacyQuarantinedGids task) ∧
      manager.store id task claimReservations =
        { (collectTaskGids task).foldl (claimGid id claimReservations)
            (manager.registration id task owners) with
          indexedGids := fun other =>
            if other = id ∧ collectTaskGids task ≠ [] then
              collectTaskGids task
            else
              ((collectTaskGids task).foldl (claimGid id claimReservations)
                (manager.registration id task owners)).indexedGids other } := by
  obtain ⟨owners, quarantined, members⟩ := quarantineAll_eq id
    (getLegacyQuarantinedGids task)
    { manager.deindex id with
      tasks := fun other =>
        if other = id then some task else (manager.deindex id).tasks other }
  refine ⟨owners, members, ?_⟩
  unfold store
  simp only [indexed.cleared_eq, quarantined, retireAll_eq]
  rfl

theorem Indexed.registration_legacy (indexed : Indexed manager)
    {id : String} {task : DownloadTask} {owners : String → List String}
    (members : ∀ gid other, other ∈ owners gid ↔
      other ∈ (manager.deindex id).legacyGidOwners gid ∨
        other = id ∧ gid ∈ getLegacyQuarantinedGids task)
    (other gid : String) :
    gid ∈ (manager.registration id task owners).indexedLegacyGids other ↔
      other ∈ owners gid := by
  have before := (indexed.deindex id).legacy other gid
  have empty : (manager.deindex id).indexedLegacyGids id = [] := if_pos rfl
  rw [members]
  unfold registration
  by_cases same : other = id
  · subst same
    rw [empty] at before
    have gone : other ∉ (manager.deindex other).legacyGidOwners gid :=
      fun found => List.not_mem_nil (before.mpr found)
    by_cases quiet : getLegacyQuarantinedGids task = []
    · simp [quiet, gone, empty]
    · simp [quiet, gone]
  · simp [same, before]

theorem Indexed.registration_others (indexed : Indexed manager)
    (id : String) (task : DownloadTask) (owners : String → List String) :
    OthersIndexed (manager.registration id task owners) id where
  snapshot other gid _ := (indexed.deindex id).snapshot other gid
  named other gid found := (indexed.deindex id).named other gid found

theorem Indexed.store_reserved (indexed : Indexed manager) {id : String}
    (named : id ≠ "") (task : DownloadTask) (claimReservations : Bool)
    (gid : String) :
    gid ∈ (manager.store id task claimReservations).reservedEngineGids ↔
      gid ∈ manager.reservedEngineGids ∧
        ¬(claimReservations = true ∧ gid ∈ collectTaskGids task) := by
  obtain ⟨owners, _, equal⟩ := indexed.store_eq id task claimReservations
  have claimed := claimAll_claimed named claimReservations
    (collectTaskGids task) (manager.registration id task owners)
  rw [equal]
  exact claimed.reserved gid

theorem Indexed.store_rewritten (indexed : Indexed manager) {id : String}
    (named : id ≠ "") (task : DownloadTask) (claimReservations : Bool) :
    Rewritten manager (manager.store id task claimReservations) id
      (some task) := by
  obtain ⟨owners, members, equal⟩ :=
    indexed.store_eq id task claimReservations
  have claimed := claimAll_claimed named claimReservations
    (collectTaskGids task) (manager.registration id task owners)
  have others := claimed.others (indexed.registration_others id task owners)
  have cleared := indexed.deindex id
  have legacy := indexed.registration_legacy members
  rw [equal]
  constructor
  · intro other
    show ((collectTaskGids task).foldl (claimGid id claimReservations)
      (manager.registration id task owners)).tasks other = _
    rw [claimed.tasks]
    rfl
  · exact claimed.index
  · intro gid inside
    obtain ⟨retired, absent⟩ := (claimed.retired gid).mp inside
    refine ⟨absent, ?_⟩
    rcases mem_foldl_retireGid retired with earlier | dropped
    · exact Or.inl earlier
    · exact Or.inr (List.mem_of_mem_filter dropped)
  · constructor
    · intro other gid
      have index := claimed.index gid
      by_cases same : other = id
      · subst same
        have gone : (manager.registration other task owners).engineIndex gid ≠
            some other := indexed.deindex_ne other gid
        by_cases bare : collectTaskGids task = []
        · have empty : (manager.registration other task owners).indexedGids
              other = [] := if_pos rfl
          simp [bare, empty, gone]
        · simp only [bare, ne_eq, not_false_eq_true, and_true, if_true]
          rw [index]
          by_cases inside : gid ∈ collectTaskGids task
          · simp [inside]
          · simp [inside, gone]
      · have before := others.snapshot other gid same
        simpa [same] using before
    · intro other gid found
      show (((collectTaskGids task).foldl (claimGid id claimReservations)
        (manager.registration id task owners)).tasks other).isSome
      have tasks : (manager.registration id task owners).tasks other =
          if other = id then some task else manager.tasks other := rfl
      rw [claimed.tasks, tasks]
      by_cases same : other = id
      · rw [if_pos same]
        rfl
      · rw [if_neg same]
        have index := claimed.index gid
        have owned : ((collectTaskGids task).foldl
            (claimGid id claimReservations)
            (manager.registration id task owners)).engineIndex gid =
            some other := found
        rw [owned] at index
        by_cases inside : gid ∈ collectTaskGids task
        · rw [if_pos inside] at index
          exact absurd (Option.some.inj index) same
        · rw [if_neg inside] at index
          exact cleared.stored other gid index.symm
    · intro other gid found
      exact others.named other gid found
    · intro other gid
      show gid ∈ ((collectTaskGids task).foldl (claimGid id claimReservations)
          (manager.registration id task owners)).indexedLegacyGids other ↔
        other ∈ ((collectTaskGids task).foldl (claimGid id claimReservations)
          (manager.registration id task owners)).legacyGidOwners gid
      rw [claimed.quarantined, claimed.owners]
      exact legacy other gid
    · intro other gid found
      show (((collectTaskGids task).foldl (claimGid id claimReservations)
        (manager.registration id task owners)).tasks other).isSome
      have tasks : (manager.registration id task owners).tasks other =
          if other = id then some task else manager.tasks other := rfl
      have quarantined : gid ∈ (manager.registration id task
          owners).indexedLegacyGids other := by
        rw [← claimed.quarantined]
        exact found
      rw [claimed.tasks, tasks]
      by_cases same : other = id
      · rw [if_pos same]
        rfl
      · rw [if_neg same]
        rw [legacy, members] at quarantined
        rcases quarantined with before | ⟨equal, _⟩
        · exact cleared.legacyStored other gid
            ((cleared.legacy other gid).mpr before)
        · exact absurd equal same

/-! ## The other calls -/

theorem Indexed.unstored (indexed : Indexed manager) (id : String) :
    Rewritten manager ((manager.deindex id).deleteTask id) id none where
  tasks other := rfl
  index gid := (if_neg List.not_mem_nil).symm
  retired gid inside := ⟨List.not_mem_nil, Or.inl inside⟩
  indexed := by
    have cleared := indexed.deindex id
    constructor
    · exact cleared.snapshot
    · intro other gid found
      obtain ⟨before, different⟩ := indexed.of_deindex_index found
      have tasks : ((manager.deindex id).deleteTask id).tasks other =
          manager.tasks other := if_neg different
      rw [tasks]
      exact indexed.stored other gid before
    · exact cleared.named
    · exact cleared.legacy
    · intro other gid found
      by_cases same : other = id
      · have empty : ((manager.deindex id).deleteTask id).indexedLegacyGids
            other = [] := if_pos same
        rw [empty] at found
        cases found
      · have tasks : ((manager.deindex id).deleteTask id).tasks other =
            manager.tasks other := if_neg same
        rw [tasks]
        exact cleared.legacyStored other gid found

theorem Indexed.remove_eq (indexed : Indexed manager) (id : String) :
    (manager.remove id).2 =
      { (manager.deindex id).deleteTask id with
        retiredEngineGids := (manager.previousGids id).foldl retireGid
          manager.retiredEngineGids } := by
  unfold remove
  simp only [indexed.cleared_eq, retireAll_eq]
  rfl

theorem Indexed.remove_rewritten (indexed : Indexed manager)
    (id : String) : Rewritten manager (manager.remove id).2 id none := by
  have unstored := indexed.unstored id
  rw [indexed.remove_eq]
  constructor
  · exact unstored.tasks
  · exact unstored.index
  · intro gid inside
    exact ⟨List.not_mem_nil, mem_foldl_retireGid inside⟩
  · exact unstored.indexed.withShields _ _

theorem Rewritten.withReserved {next : TaskManager} {id : String}
    {written : Option DownloadTask}
    (rewritten : Rewritten manager next id written)
    (reserved : List String) :
    Rewritten manager { next with reservedEngineGids := reserved } id
      written where
  tasks := rewritten.tasks
  index := rewritten.index
  retired := rewritten.retired
  indexed := rewritten.indexed.withShields _ _

end TaskManager

end Motrix.Task
