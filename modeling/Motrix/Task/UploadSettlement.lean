import Motrix.Lib.Trace
import Motrix.Task.ReAddTask

/-!
# Settling what a torrent uploaded

The lifetime upload of a task is a durable baseline and what the current engine
id uploaded above it.  A settlement moves that part into the baseline and marks
it on the primary instance, so that it can be repeated after a crash.
-/

namespace Motrix.UploadSettlement

open Motrix.Activity (TaskStatus)
open Motrix.Lib
open Motrix.ReAdd

/-! ## Polls, settlements and restored rows -/

def unsettledBtUpload (instances : List ReAddInstance) (gid : String)
    (uploadedBytes : Int) : Int :=
  max 0 (uploadedBytes - ((accountedUpload instances gid).getD 0 : Nat))

/-- A reading that is not finite counts as nothing. -/
def settleBtUpload (task : ReAddTask) (upload : Option Int)
    (recovering : Bool) : ReAddTask :=
  let primary := primaryPosition task.instances
  let accounted := accountedUpload task.instances task.engineTaskId
  let upload := max (upload.getD 0)
    (task.uploadedBytes - task.uploadedBytesBaseline +
      (accounted.getD 0 : Nat))
  let previous : Int :=
    (accounted.map Int.ofNat).getD
      -- Old finalizes saved their baseline without a marker.
      (if recovering && primary.isSome then upload else 0)
  let baseline := task.uploadedBytesBaseline + max 0 (upload - previous)
  { task with
    uploadedBytesBaseline := baseline
    uploadedBytes := baseline
    instances := task.instances.mapIdx fun index entry =>
      if primary = some index then
        { entry with
          upload := some ⟨task.engineTaskId, (max previous upload).toNat⟩ }
      else entry }

/-- `uploadedBytes` of `mergeEngineTask`, for a poll of the current id. -/
def mergeEngineTask (task : ReAddTask) (counter : Int) : ReAddTask :=
  { task with
    uploadedBytes := task.uploadedBytesBaseline +
      unsettledBtUpload task.instances task.engineTaskId counter }

/-- The first instance row names the engine id after a restart. -/
def taskRowToDownloadTask (row : ReAddTask) : ReAddTask :=
  let gid := (row.instances.head?.bind (·.gid)).getD ""
  { row with
    engineTaskId := gid
    uploadedBytes := row.uploadedBytesBaseline +
      unsettledBtUpload row.instances gid
        ((row.instances.head?.map (·.uploadedBytes)).getD 0) }

/-! ## The marker of the primary instance -/

def phases (instances : List ReAddInstance) : List TaskEnums.TaskInstancePhase :=
  instances.map (·.phase)

def betterEntry (best entry : ReAddInstance × Nat) : ReAddInstance × Nat :=
  if phasePriority best.1.phase < phasePriority entry.1.phase then entry
  else best

theorem best_congr {left right : List ReAddInstance} {start : Nat}
    {first second : ReAddInstance × Nat}
    (same : phases left = phases right)
    (phase : first.1.phase = second.1.phase) (index : first.2 = second.2) :
    ((left.zipIdx start).foldl betterEntry first).2 =
      ((right.zipIdx start).foldl betterEntry second).2 := by
  induction left generalizing right start first second with
  | nil =>
      have empty : right = [] := by
        simpa [phases] using same.symm
      subst empty
      exact index
  | cons head rest induction =>
      cases right with
      | nil => simp [phases] at same
      | cons other others =>
          obtain ⟨head, rest⟩ : head.phase = other.phase ∧
              phases rest = phases others := by
            simpa [phases] using same
          simp only [List.zipIdx_cons, List.foldl_cons]
          apply induction rest
          · simp only [betterEntry, phase, head]
            split
            · exact head
            · exact phase
          · simp only [betterEntry, phase, head]
            split
            · rfl
            · exact index

theorem primaryPosition_congr {left right : List ReAddInstance}
    (same : phases left = phases right) :
    primaryPosition left = primaryPosition right := by
  cases left with
  | nil =>
      have empty : right = [] := by
        simpa [phases] using same.symm
      rw [empty]
  | cons head rest =>
      cases right with
      | nil => simp [phases] at same
      | cons other others =>
          obtain ⟨first, rest⟩ : head.phase = other.phase ∧
              phases rest = phases others := by
            simpa [phases] using same
          exact congrArg some (best_congr rest first rfl)

theorem best_bound (instances : List ReAddInstance) {start : Nat}
    {first : ReAddInstance × Nat} (below : first.2 < start) :
    ((instances.zipIdx start).foldl betterEntry first).2 <
      start + instances.length := by
  induction instances generalizing start first with
  | nil => simpa using below
  | cons head rest induction =>
      simp only [List.zipIdx_cons, List.foldl_cons, List.length_cons]
      have bound : (betterEntry first (head, start)).2 < start + 1 := by
        simp only [betterEntry]
        split
        · exact Nat.lt_succ_self start
        · exact Nat.lt_succ_of_lt below
      have next := induction bound
      omega

/-- The primary instance holds the only marker there can be. -/
def PrimaryMarked (instances : List ReAddInstance)
    (marker : Option UploadMarker) : Prop :=
  ∃ front primary back, instances = front ++ primary :: back ∧
    primaryPosition instances = some front.length ∧
    (∀ entry ∈ front ++ back, entry.upload = none) ∧
    primary.upload = marker

/-- What an entry of a list becomes where its phase and marker stay. -/
def mark (instances : List ReAddInstance) (marker : UploadMarker) :
    List ReAddInstance :=
  instances.mapIdx fun index entry =>
    if primaryPosition instances = some index then
      { entry with upload := some marker }
    else entry

/-- The task whose baseline and marker reach an upload. -/
def moveUpload (task : ReAddTask) (reached previous : Int) : ReAddTask :=
  { task with
    uploadedBytesBaseline :=
      task.uploadedBytesBaseline + max 0 (reached - previous)
    uploadedBytes :=
      task.uploadedBytesBaseline + max 0 (reached - previous)
    instances := mark task.instances
      ⟨task.engineTaskId, (max previous reached).toNat⟩ }

/-- A settlement by what it reaches and what it finds accounted. -/
theorem settleBtUpload_eq {task : ReAddTask} {upload : Option Int}
    {recovering : Bool} {reached previous : Int}
    (reaches : max (upload.getD 0)
      (task.uploadedBytes - task.uploadedBytesBaseline +
        ((accountedUpload task.instances task.engineTaskId).getD 0 : Nat)) =
      reached)
    (finds : ((accountedUpload task.instances task.engineTaskId).map
        Int.ofNat).getD
      (if recovering && (primaryPosition task.instances).isSome then reached
        else 0) = previous) :
    settleBtUpload task upload recovering =
      moveUpload task reached previous := by
  subst reaches
  subst finds
  rfl

theorem phases_mark (instances : List ReAddInstance) (marker : UploadMarker) :
    phases (mark instances marker) = phases instances := by
  apply List.ext_getElem
  · simp [phases, mark]
  · intro index left right
    simp only [phases, mark, List.getElem_map, List.getElem_mapIdx]
    split
    · rfl
    · rfl

theorem mark_mark (instances : List ReAddInstance)
    (marker other : UploadMarker) :
    mark (mark instances marker) other = mark instances other := by
  have same := primaryPosition_congr (phases_mark instances marker)
  apply List.ext_getElem
  · simp [mark]
  · intro index left right
    simp only [mark] at same
    simp only [mark, List.getElem_mapIdx, same]
    split
    · rfl
    · rfl

theorem mapIdx_apart (part : List ReAddInstance) (start position : Nat)
    (marker : UploadMarker)
    (apart : ∀ index < part.length, position ≠ index + start) :
    (part.mapIdx fun index entry =>
      if some position = some (index + start) then
        { entry with upload := some marker }
      else entry) = part := by
  apply List.ext_getElem
  · simp
  · intro index left right
    rw [List.getElem_mapIdx, if_neg]
    intro same
    exact apart index right (Option.some.inj same)

theorem moveUpload_again {task : ReAddTask} {reached previous : Int}
    (reaches : previous ≤ reached) :
    moveUpload (moveUpload task reached previous) reached reached =
      moveUpload task reached previous := by
  have whole : max previous reached = reached := Int.max_eq_right reaches
  simp [moveUpload, mark_mark, whole]

namespace PrimaryMarked

variable {instances : List ReAddInstance} {marker : Option UploadMarker}

theorem of_unmarked (some : instances ≠ [])
    (unmarked : ∀ entry ∈ instances, entry.upload = none) :
    PrimaryMarked instances none := by
  obtain ⟨position, here, bound⟩ : ∃ position,
      primaryPosition instances = .some position ∧
        position < instances.length := by
    cases instances with
    | nil => exact absurd rfl some
    | cons head rest =>
        refine ⟨_, rfl, ?_⟩
        rw [List.length_cons, Nat.add_comm]
        apply best_bound rest
        exact Nat.zero_lt_one
  refine ⟨instances.take position, instances[position],
    instances.drop (position + 1), ?_, ?_, ?_, ?_⟩
  · simp
  · rw [here, List.length_take_of_le (Nat.le_of_lt bound)]
  · intro entry member
    apply unmarked
    rcases List.mem_append.mp member with front | back
    · exact List.mem_of_mem_take front
    · exact List.mem_of_mem_drop back
  · exact unmarked _ (List.getElem_mem bound)

theorem position (marked : PrimaryMarked instances marker) :
    (primaryPosition instances).isSome := by
  obtain ⟨_, _, _, _, position, _⟩ := marked
  simp [position]

/-- Only the marker of the primary instance accounts for an engine id. -/
theorem accounted (marked : PrimaryMarked instances marker) (gid : String) :
    accountedUpload instances gid =
      marker.bind fun entry =>
        if entry.gid = gid then some entry.bytes else none := by
  obtain ⟨front, primary, back, split, -, unmarked, here⟩ := marked
  have empty : ∀ part : List ReAddInstance,
      (∀ entry ∈ part, entry.upload = none) →
        part.filterMap (·.upload) = [] := by
    intro part none
    exact List.filterMap_eq_nil_iff.mpr none
  unfold accountedUpload
  rw [split, List.filterMap_append,
    empty front fun entry member =>
      unmarked entry (List.mem_append_left _ member),
    List.filterMap_cons, here,
    empty back fun entry member =>
      unmarked entry (List.mem_append_right _ member)]
  cases marker with
  | none => rfl
  | some entry => by_cases same : entry.gid = gid <;> simp [same]

/-- Entries that keep their phase and marker keep the primary one. -/
theorem mapIdx (marked : PrimaryMarked instances marker)
    {change : Nat → ReAddInstance → ReAddInstance}
    (phase : ∀ index entry, (change index entry).phase = entry.phase)
    (upload : ∀ index entry, (change index entry).upload = entry.upload) :
    PrimaryMarked (instances.mapIdx change) marker := by
  obtain ⟨front, primary, back, split, position, unmarked, here⟩ := marked
  refine ⟨front.mapIdx change, change front.length primary,
    back.mapIdx fun index => change (index + (front.length + 1)), ?_, ?_, ?_,
    ?_⟩
  · rw [split, List.mapIdx_append, List.mapIdx_cons]
    simp [Nat.add_comm, Nat.add_left_comm]
  · rw [List.length_mapIdx, ← position]
    apply primaryPosition_congr
    apply List.ext_getElem
    · simp [phases]
    · intro index left right
      simp [phases, phase]
  · intro entry member
    rcases List.mem_append.mp member with inside | inside
    · obtain ⟨index, bound, rfl⟩ := List.mem_mapIdx.mp inside
      rw [upload]
      exact unmarked _ (List.mem_append_left _ (List.getElem_mem bound))
    · obtain ⟨index, bound, rfl⟩ := List.mem_mapIdx.mp inside
      rw [upload]
      exact unmarked _ (List.mem_append_right _ (List.getElem_mem bound))
  · rw [upload, here]

theorem mark (marked : PrimaryMarked instances marker)
    (fresh : UploadMarker) :
    PrimaryMarked (UploadSettlement.mark instances fresh) (some fresh) := by
  have kept := primaryPosition_congr (phases_mark instances fresh)
  obtain ⟨front, primary, back, split, position, unmarked, here⟩ := marked
  refine ⟨front, { primary with upload := some fresh }, back, ?_, ?_, unmarked,
    rfl⟩
  · have first := mapIdx_apart front 0 front.length fresh (by omega)
    have last := mapIdx_apart back (front.length + 1) front.length fresh
      (by omega)
    simp only [UploadSettlement.mark, position]
    rw [split, List.mapIdx_append, List.mapIdx_cons]
    simp only [Nat.add_zero] at first
    rw [first]
    simpa [Nat.add_comm, Nat.add_left_comm] using last
  · rw [kept, position]

end PrimaryMarked

end Motrix.UploadSettlement
