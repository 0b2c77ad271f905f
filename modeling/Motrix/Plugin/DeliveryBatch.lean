import Mathlib.Data.List.Nodup
import Mathlib.Data.List.Perm.Subperm
import Motrix.Lib.Trace
import Motrix.Lib.Utf16

/-!
# One batch of deliveries

The batch claims deliveries plugin by plugin and awaits a race of the
executions that it has launched.  An execution that has settled leaves the
batch by itself, whatever the batch awaits then.
-/

namespace Motrix.DeliveryBatch

open Lib

/-! ## The batch -/

inductive RowOutcome where
  | delivered
  | retried
  | deadLettered
  | leaseLost
  deriving DecidableEq

structure PostDeliveryBatchResult where
  claimed : Nat
  delivered : Nat
  retried : Nat
  deadLettered : Nat
  leaseLost : Nat
  deriving DecidableEq

namespace PostDeliveryBatchResult

def count (result : PostDeliveryBatchResult) :
    RowOutcome → PostDeliveryBatchResult
  | .delivered => { result with delivered := result.delivered + 1 }
  | .retried => { result with retried := result.retried + 1 }
  | .deadLettered => { result with deadLettered := result.deadLettered + 1 }
  | .leaseLost => { result with leaseLost := result.leaseLost + 1 }

def outcomes (result : PostDeliveryBatchResult) : Nat :=
  result.delivered + result.retried + result.deadLettered + result.leaseLost

end PostDeliveryBatchResult

/-- An execution, with its outcome once it has settled. -/
structure Task where
  pluginId : String
  outcome : Option RowOutcome
  deriving DecidableEq

structure Limits where
  claimBatch : Nat
  globalWorkers : Nat

/-- What the batch awaits: a storage call, with the plugins that are still to
be tried, or a race of executions, with the outcome that has won it. -/
inductive Await where
  | recovery
  | plugins
  | permit (pluginId : String) (rest : List String) (launched : Bool)
  | lease (pluginId : String) (rest : List String) (launched : Bool)
  | release (pluginId : String) (rest : List String) (launched : Bool)
  | releaseAndThrow
  | race (members : List Nat) (winner : Option RowOutcome) (last : Bool)
  | resolved
  | rejected
  deriving DecidableEq

/-- Executions are known by the number of their launch. -/
structure Batch where
  limits : Limits
  result : PostDeliveryBatchResult
  runningPlugins : List String
  running : List Nat
  tasks : List Task
  cursor : Option String
  aborted : Bool
  place : Await

inductive Event where
  | recovered
  | listed (pluginIds : List String)
  | permitted (granted : Bool)
  | leased (found : Bool)
  | released
  | failed
  | settle (task : Nat) (outcome : RowOutcome)
  | removed (task : Nat)
  | raced (task : Nat)
  | resume
  | abort

namespace Batch

/-- The names in the order of their code units, from behind the cursor. -/
def rotate (batch : Batch) (pluginIds : List String) : List String :=
  let sorted := pluginIds.dedup.mergeSort fun left right =>
    Utf16.encode left.toList ≤ Utf16.encode right.toList
  match batch.cursor with
  | none => sorted
  | some cursor =>
      if cursor.isEmpty then sorted
      else
        let isAfter := fun pluginId : String =>
          decide (Utf16.encode cursor.toList < Utf16.encode pluginId.toList)
        sorted.dropWhile (!isAfter ·) ++ sorted.takeWhile (!isAfter ·)

/-- The loop that only waits for what is running. -/
def tail (batch : Batch) : Await :=
  if batch.running = [] then .resolved else .race batch.running none true

def afterFor (batch : Batch) (launched : Bool) (again : Await) : Await :=
  if batch.running = [] then batch.tail
  else if launched = false ∨
      batch.limits.globalWorkers ≤ batch.running.length then
    .race batch.running none false
  else again

def whileTop (batch : Batch) : Await :=
  if batch.result.claimed < batch.limits.claimBatch ∧
      batch.aborted = false then
    if batch.running.length < batch.limits.globalWorkers then .plugins
    else batch.afterFor false .plugins
  else batch.tail

def forNext (batch : Batch) : List String → Bool → Await
  | [], launched => batch.afterFor launched batch.whileTop
  | pluginId :: rest, launched =>
      if batch.aborted = true ∨
          batch.limits.claimBatch ≤ batch.result.claimed ∨
          batch.limits.globalWorkers ≤ batch.running.length then
        batch.afterFor launched batch.whileTop
      else if batch.runningPlugins.contains pluginId then
        batch.forNext rest launched
      else .permit pluginId rest launched

/-- The next plugin, behind one that was tried. -/
def tried (batch : Batch) (pluginId : String) (rest : List String)
    (launched : Bool) : Batch :=
  { batch with
    cursor := some pluginId
    place := batch.forNext rest launched }

def launch (batch : Batch) (pluginId : String) : Batch :=
  { batch with
    result := { batch.result with claimed := batch.result.claimed + 1 }
    runningPlugins := batch.runningPlugins ++ [pluginId]
    running := batch.running ++ [batch.tasks.length]
    tasks := batch.tasks ++ [⟨pluginId, none⟩] }

def permitted (batch : Batch) (granted : Bool) : Batch :=
  match batch.place with
  | .permit pluginId rest launched =>
      if granted = false then batch.tried pluginId rest launched
      else if batch.aborted then
        { batch with place := .release pluginId rest launched }
      else { batch with place := .lease pluginId rest launched }
  | _ => batch

def leased (batch : Batch) (found : Bool) : Batch :=
  match batch.place with
  | .lease pluginId rest launched =>
      if found then (batch.launch pluginId).tried pluginId rest true
      else { batch with place := .release pluginId rest launched }
  | _ => batch

def released (batch : Batch) : Batch :=
  match batch.place with
  | .release pluginId rest launched => batch.tried pluginId rest launched
  | .releaseAndThrow => { batch with place := .rejected }
  | _ => batch

def failed (batch : Batch) : Batch :=
  match batch.place with
  | .lease _ _ _ => { batch with place := .releaseAndThrow }
  | .recovery | .plugins | .permit _ _ _ | .release _ _ _
  | .releaseAndThrow => { batch with place := .rejected }
  | _ => batch

def settle (batch : Batch) (task : Nat) (outcome : RowOutcome) : Batch :=
  match batch.tasks[task]? with
  | some ⟨pluginId, none⟩ =>
      { batch with tasks := batch.tasks.set task ⟨pluginId, some outcome⟩ }
  | _ => batch

/-- An execution leaves once it has settled. -/
def removed (batch : Batch) (task : Nat) : Batch :=
  match batch.tasks[task]? with
  | some ⟨pluginId, some _⟩ =>
      if batch.running.contains task then
        { batch with
          running := batch.running.filter (· != task)
          runningPlugins := batch.runningPlugins.filter (· != pluginId) }
      else batch
  | _ => batch

/-- The race hears of an execution behind its leaving. -/
def raced (batch : Batch) (task : Nat) : Batch :=
  match batch.place, batch.tasks[task]? with
  | .race members none last, some ⟨_, some outcome⟩ =>
      if members.contains task && !batch.running.contains task then
        { batch with place := .race members (some outcome) last }
      else batch
  | _, _ => batch

def resume (batch : Batch) : Batch :=
  match batch.place with
  | .race _ (some outcome) last =>
      let counted := { batch with result := batch.result.count outcome }
      { counted with
        place := if last then counted.tail else counted.whileTop }
  | _ => batch

def step (batch : Batch) : Event → Batch
  | .recovered =>
      if batch.place = .recovery then { batch with place := batch.whileTop }
      else batch
  | .listed pluginIds =>
      if batch.place = .plugins then
        { batch with place := batch.forNext (batch.rotate pluginIds) false }
      else batch
  | .permitted granted => batch.permitted granted
  | .leased found => batch.leased found
  | .released => batch.released
  | .failed => batch.failed
  | .settle task outcome => batch.settle task outcome
  | .removed task => batch.removed task
  | .raced task => batch.raced task
  | .resume => batch.resume
  | .abort => { batch with aborted := true }

def start (limits : Limits) (recovered : Bool) (cursor : Option String)
    (aborted : Bool) : Batch :=
  let idle : Batch :=
    { limits := limits
      result := ⟨0, 0, 0, 0, 0⟩
      runningPlugins := []
      running := []
      tasks := []
      cursor := cursor
      aborted := aborted
      place := .recovery }
  if recovered then { idle with place := idle.whileTop } else idle

def play (batch : Batch) (events : List Event) : Batch :=
  events.foldl step batch

/-- The executions that have not settled. -/
def underWay (batch : Batch) : List Nat :=
  (List.range batch.tasks.length).filter fun task =>
    (batch.tasks[task]?.map fun found => found.outcome.isNone) == some true

/-- Whether the batch awaits a race of an execution that no execution of this
race has left yet. -/
def awaits (batch : Batch) (task : Nat) : Bool :=
  match batch.place with
  | .race members none _ =>
      members.contains task && members.all batch.running.contains
  | _ => false

/-- Whether the execution leaves now. -/
def leaves (batch : Batch) (task : Nat) : Bool :=
  batch.running.contains task &&
    (batch.tasks[task]?.map fun found => found.outcome.isSome) == some true

/-- An execution leaves while the batch awaits the first of a race with it. -/
def Timely (batch : Batch) : Event → Prop
  | .removed task => batch.leaves task = true → batch.awaits task = true
  | _ => True

/-! ## Where the loop may stand -/

def claiming : Await → Option String
  | .permit pluginId _ _ | .lease pluginId _ _ | .release pluginId _ _ =>
      some pluginId
  | _ => none

/-- Whether a race has been won, or left by one of its members, and has not
been counted. -/
def pending (running : List Nat) : Await → Bool
  | .race members winner _ =>
      winner.isSome || !members.all running.contains
  | _ => false

/-- A place that the loop reaches by itself. -/
structure Fresh (batch : Batch) (place : Await) : Prop where
  room : ∀ pluginId, claiming place = some pluginId →
    batch.running.length < batch.limits.globalWorkers ∧
      batch.result.claimed < batch.limits.claimBatch ∧
      pluginId ∉ batch.runningPlugins
  done : place = .resolved → batch.running = []
  idle : pending batch.running place = false

variable {batch : Batch}

theorem race_fresh (batch : Batch) (last : Bool) :
    Fresh batch (.race batch.running none last) where
  room _ none' := by cases none'
  done none' := by cases none'
  idle := by simp [pending]

theorem plugins_fresh (batch : Batch) : Fresh batch .plugins where
  room _ none' := by cases none'
  done none' := by cases none'
  idle := rfl

theorem tail_fresh (batch : Batch) : Fresh batch batch.tail := by
  unfold tail
  split
  · rename_i empty
    exact ⟨fun _ none' => (by cases none'), fun _ => empty, rfl⟩
  · exact race_fresh batch true

theorem afterFor_fresh {again : Await} (fresh : Fresh batch again)
    (launched : Bool) : Fresh batch (batch.afterFor launched again) := by
  unfold afterFor
  split
  · exact tail_fresh batch
  · split
    · exact race_fresh batch false
    · exact fresh

theorem whileTop_fresh (batch : Batch) : Fresh batch batch.whileTop := by
  unfold whileTop
  split
  · split
    · exact plugins_fresh batch
    · exact afterFor_fresh (plugins_fresh batch) false
  · exact tail_fresh batch

theorem forNext_fresh (batch : Batch) (pluginIds : List String)
    (launched : Bool) : Fresh batch (batch.forNext pluginIds launched) := by
  induction pluginIds with
  | nil => exact afterFor_fresh (whileTop_fresh batch) launched
  | cons pluginId rest induction =>
      unfold forNext
      split
      · exact afterFor_fresh (whileTop_fresh batch) launched
      · rename_i free
        split
        · exact induction
        · rename_i absent
          simp only [not_or, Nat.not_le] at free
          constructor
          · intro other same
            cases same
            exact ⟨free.2.2, free.2.1, by simpa using absent⟩
          · intro none'
            cases none'
          · rfl

/-! ## What every run keeps -/

structure Manned (batch : Batch) : Prop where
  claimed : batch.result.claimed = batch.tasks.length
  batch' : batch.result.claimed ≤ batch.limits.claimBatch
  workers : batch.running.length ≤ batch.limits.globalWorkers
  keys : batch.running.Nodup
  known : ∀ task ∈ batch.running, ∃ found, batch.tasks[task]? = some found ∧
    found.pluginId ∈ batch.runningPlugins
  apart : ∀ i ∈ batch.running, ∀ j ∈ batch.running,
    batch.tasks[i]?.map Task.pluginId = batch.tasks[j]?.map Task.pluginId →
      i = j
  open' : ∀ task found, batch.tasks[task]? = some found →
    found.outcome = none → task ∈ batch.running

structure Placed (batch : Batch) : Prop where
  room : ∀ pluginId, claiming batch.place = some pluginId →
    batch.running.length < batch.limits.globalWorkers ∧
      batch.result.claimed < batch.limits.claimBatch ∧
      pluginId ∉ batch.runningPlugins
  done : batch.place = .resolved → batch.running = []

/-- Every claimed delivery is counted, running, about to be counted, or was
missed. -/
def Booked (batch : Batch) (missed : Nat) : Prop :=
  batch.tasks.length = batch.result.outcomes + batch.running.length +
    (pending batch.running batch.place).toNat + missed

/-- The state of a batch in which the race has missed some executions. -/
structure Sound (batch : Batch) (missed : Nat) : Prop where
  manned : Manned batch
  placed : Placed batch
  booked : Booked batch missed

variable {missed : Nat}

/-- The loop goes on at a fresh place once nothing is left to be counted. -/
theorem Sound.proceed (manned : Manned batch) (booked : Booked batch missed)
    (idle : pending batch.running batch.place = false) {place : Await}
    (fresh : Fresh batch place) (cursor : Option String) :
    Sound { batch with cursor := cursor, place := place } missed where
  manned := ⟨manned.claimed, manned.batch', manned.workers, manned.keys,
    manned.known, manned.apart, manned.open'⟩
  placed := ⟨fresh.room, fresh.done⟩
  booked := by
    unfold Booked at booked ⊢
    rw [idle] at booked
    simpa [fresh.idle] using booked

theorem launch_manned (manned : Manned batch) {pluginId : String}
    (room : batch.running.length < batch.limits.globalWorkers ∧
      batch.result.claimed < batch.limits.claimBatch ∧
      pluginId ∉ batch.runningPlugins) :
    Manned (batch.launch pluginId) := by
  have inside : ∀ task ∈ batch.running, task < batch.tasks.length := by
    intro task member
    obtain ⟨found, listed, _⟩ := manned.known task member
    exact (List.getElem?_eq_some_iff.mp listed).1
  have kept : ∀ task ∈ batch.running,
      (batch.launch pluginId).tasks[task]? = batch.tasks[task]? :=
    fun task member => List.getElem?_append_left (inside task member)
  have last : (batch.launch pluginId).tasks[batch.tasks.length]? =
      some ⟨pluginId, none⟩ := by
    simp [launch]
  have other : ∀ task ∈ batch.running,
      batch.tasks[task]?.map Task.pluginId ≠ some pluginId := by
    intro task member same
    obtain ⟨found, listed, runs⟩ := manned.known task member
    rw [listed, Option.map_some, Option.some.injEq] at same
    exact room.2.2 (same ▸ runs)
  constructor
  · simp [launch, manned.claimed]
  · exact room.2.1
  · simpa [launch] using Nat.succ_le_of_lt room.1
  · apply List.Nodup.append manned.keys (List.nodup_singleton _)
    intro task member new
    rw [List.mem_singleton.mp new] at member
    exact Nat.lt_irrefl _ (inside _ member)
  · intro task member
    rcases List.mem_append.mp member with old | new
    · obtain ⟨found, listed, runs⟩ := manned.known task old
      exact ⟨found, (kept task old).trans listed,
        List.mem_append_left _ runs⟩
    · rw [List.mem_singleton.mp new]
      exact ⟨_, last, by simp [launch]⟩
  · intro i first j second same
    rcases List.mem_append.mp first with old | new
    · rcases List.mem_append.mp second with old' | new'
      · rw [kept i old, kept j old'] at same
        exact manned.apart i old j old' same
      · rw [List.mem_singleton.mp new', last, kept i old] at same
        exact absurd same (other i old)
    · rcases List.mem_append.mp second with old' | new'
      · rw [List.mem_singleton.mp new, last, kept j old'] at same
        exact absurd same.symm (other j old')
      · rw [List.mem_singleton.mp new, List.mem_singleton.mp new']
  · intro task found listed fresh
    simp only [launch, List.getElem?_append] at listed ⊢
    rw [List.mem_append]
    split at listed
    · exact .inl (manned.open' task found listed fresh)
    · obtain ⟨inside', _⟩ := List.getElem?_eq_some_iff.mp listed
      rw [List.length_singleton] at inside'
      exact .inr (List.mem_singleton.mpr (by omega))

theorem settle_manned (manned : Manned batch) {task : Nat} {pluginId : String}
    (found : batch.tasks[task]? = some ⟨pluginId, none⟩)
    (outcome : RowOutcome) :
    Manned { batch with
      tasks := batch.tasks.set task ⟨pluginId, some outcome⟩ } := by
  have inside := (List.getElem?_eq_some_iff.mp found).1
  have lookup : ∀ other : Nat,
      (batch.tasks.set task ⟨pluginId, some outcome⟩)[other]? =
        if task = other then some ⟨pluginId, some outcome⟩
        else batch.tasks[other]? := by
    intro other
    rw [List.getElem?_set]
    simp [inside]
  have plugins : ∀ other : Nat,
      (batch.tasks.set task ⟨pluginId, some outcome⟩)[other]?.map
        Task.pluginId = batch.tasks[other]?.map Task.pluginId := by
    intro other
    rw [lookup]
    split
    · rename_i same
      rw [← same, found]
      rfl
    · rfl
  constructor
  · simpa using manned.claimed
  · exact manned.batch'
  · exact manned.workers
  · exact manned.keys
  · intro other member
    obtain ⟨old, listed, runs⟩ := manned.known other member
    have same := plugins other
    rw [listed, Option.map_some, Option.map_eq_some_iff] at same
    obtain ⟨next, listed', equal⟩ := same
    exact ⟨next, listed', equal ▸ runs⟩
  · intro i first j second same
    rw [plugins, plugins] at same
    exact manned.apart i first j second same
  · intro other next listed fresh
    rw [lookup] at listed
    split at listed
    · rw [← Option.some.inj listed] at fresh
      cases fresh
    · exact manned.open' other next listed fresh

theorem removed_manned (manned : Manned batch) {task : Nat}
    {pluginId : String} {outcome : RowOutcome}
    (found : batch.tasks[task]? = some ⟨pluginId, some outcome⟩)
    (runs : task ∈ batch.running) :
    Manned { batch with
      running := batch.running.filter (· != task)
      runningPlugins := batch.runningPlugins.filter (· != pluginId) } := by
  have stays : ∀ other, other ∈ batch.running.filter (· != task) ↔
      other ∈ batch.running ∧ other ≠ task := by
    intro other
    simp
  constructor
  · exact manned.claimed
  · exact manned.batch'
  · exact Nat.le_trans (List.length_filter_le _ _) manned.workers
  · exact manned.keys.filter _
  · intro other member
    obtain ⟨listed, apart⟩ := (stays other).mp member
    obtain ⟨next, found', runs'⟩ := manned.known other listed
    refine ⟨next, found', ?_⟩
    have differ : next.pluginId ≠ pluginId := by
      intro same
      apply apart
      apply manned.apart other listed task runs
      rw [found', found]
      exact congrArg some same
    simpa using ⟨runs', differ⟩
  · exact fun i first j second same =>
      manned.apart i ((stays i).mp first).1 j ((stays j).mp second).1 same
  · intro other next listed fresh
    refine (stays other).mpr ⟨manned.open' other next listed fresh, ?_⟩
    rintro rfl
    rw [← Option.some.inj (found.symm.trans listed)] at fresh
    cases fresh

theorem launched_sound (manned : Manned batch) (booked : Booked batch missed)
    (idle : pending batch.running batch.place = false) {pluginId : String}
    (room : batch.running.length < batch.limits.globalWorkers ∧
      batch.result.claimed < batch.limits.claimBatch ∧
      pluginId ∉ batch.runningPlugins)
    (rest : List String) :
    Sound ((batch.launch pluginId).tried pluginId rest true) missed := by
  have idle' : pending (batch.launch pluginId).running
      (batch.launch pluginId).place = false := by
    have place : (batch.launch pluginId).place = batch.place := rfl
    rw [place]
    cases at' : batch.place with
    | race members winner last =>
        rw [at'] at idle
        simp only [pending, Bool.or_eq_false_iff, Bool.not_eq_false',
          List.all_eq_true] at idle ⊢
        refine ⟨idle.1, fun member listed => ?_⟩
        have stays := idle.2 member listed
        simp only [List.contains_eq_mem, decide_eq_true_eq] at stays ⊢
        exact List.mem_append_left _ stays
    | _ => rfl
  have booked' : Booked (batch.launch pluginId) missed := by
    unfold Booked at booked ⊢
    rw [idle']
    rw [idle] at booked
    have tasks : (batch.launch pluginId).tasks.length =
        batch.tasks.length + 1 := by simp [launch]
    have running : (batch.launch pluginId).running.length =
        batch.running.length + 1 := by simp [launch]
    have outcomes : (batch.launch pluginId).result.outcomes =
        batch.result.outcomes := rfl
    omega
  exact Sound.proceed (launch_manned manned room) booked' idle'
    (forNext_fresh _ _ _) _

theorem claiming_idle {running : List Nat} {place : Await} {pluginId : String}
    (claims : claiming place = some pluginId) :
    pending running place = false := by
  cases place <;> first | rfl | cases claims

/-- A step that stays within the claim of a plugin. -/
theorem Sound.within (sound : Sound batch missed) {pluginId : String}
    (claims : claiming batch.place = some pluginId) {place : Await}
    (same : claiming place = some pluginId) :
    Sound { batch with place := place } missed := by
  apply Sound.proceed sound.manned sound.booked (claiming_idle claims)
  refine ⟨fun other claims' => ?_, ?_, claiming_idle same⟩
  · rw [same] at claims'
    cases claims'
    exact sound.placed.room pluginId claims
  · rintro rfl
    cases same

theorem permitted_sound (sound : Sound batch missed) (granted : Bool) :
    Sound (batch.permitted granted) missed := by
  unfold permitted
  split
  · rename_i pluginId rest launched place
    have claims : claiming batch.place = some pluginId := by rw [place]; rfl
    split
    · exact Sound.proceed sound.manned sound.booked (claiming_idle claims)
        (forNext_fresh _ _ _) _
    · split
      · exact sound.within claims rfl
      · exact sound.within claims rfl
  · exact sound

theorem leased_sound (sound : Sound batch missed) (found : Bool) :
    Sound (batch.leased found) missed := by
  unfold leased
  split
  · rename_i pluginId rest launched place
    have claims : claiming batch.place = some pluginId := by rw [place]; rfl
    split
    · exact launched_sound sound.manned sound.booked (claiming_idle claims)
        (sound.placed.room pluginId claims) rest
    · exact sound.within claims rfl
  · exact sound

/-- The end by an error. -/
theorem Sound.rejects (sound : Sound batch missed)
    (idle : pending batch.running batch.place = false) {place : Await}
    (ends : place = .rejected ∨ place = .releaseAndThrow) :
    Sound { batch with place := place } missed := by
  apply Sound.proceed sound.manned sound.booked idle
  rcases ends with rfl | rfl <;>
    exact ⟨fun _ none' => (by cases none'), fun none' => (by cases none'), rfl⟩

theorem released_sound (sound : Sound batch missed) :
    Sound batch.released missed := by
  unfold released
  split
  · rename_i pluginId rest launched place
    exact Sound.proceed sound.manned sound.booked (by rw [place]; rfl)
      (forNext_fresh _ _ _) _
  · rename_i place
    exact sound.rejects (by rw [place]; rfl) (.inl rfl)
  · exact sound

theorem failed_sound (sound : Sound batch missed) :
    Sound batch.failed missed := by
  unfold failed
  split <;> rename_i place
  · exact sound.rejects (by rw [place]; rfl) (.inr rfl)
  all_goals first
    | exact sound.rejects (by rw [place]; rfl) (.inl rfl)
    | exact sound

theorem settle_sound (sound : Sound batch missed) (task : Nat)
    (outcome : RowOutcome) : Sound (batch.settle task outcome) missed := by
  unfold settle
  split
  · rename_i pluginId found
    refine ⟨settle_manned sound.manned found outcome,
      ⟨sound.placed.room, sound.placed.done⟩, ?_⟩
    simpa [Booked] using sound.booked
  · exact sound

theorem resume_sound (sound : Sound batch missed) :
    Sound batch.resume missed := by
  unfold resume
  split
  · rename_i members outcome last place
    let counted := { batch with result := batch.result.count outcome }
    have claimed : counted.result.claimed = batch.result.claimed := by
      cases outcome <;> rfl
    have outcomes : counted.result.outcomes = batch.result.outcomes + 1 := by
      cases outcome <;>
        simp only [counted, PostDeliveryBatchResult.count,
          PostDeliveryBatchResult.outcomes] <;> omega
    have booked := sound.booked
    unfold Booked at booked
    rw [place] at booked
    have next : Fresh counted
        (if last then counted.tail else counted.whileTop) := by
      split
      · exact tail_fresh counted
      · exact whileTop_fresh counted
    refine ⟨⟨claimed.trans sound.manned.claimed,
      Nat.le_trans (Nat.le_of_eq claimed) sound.manned.batch',
      sound.manned.workers, sound.manned.keys, sound.manned.known,
      sound.manned.apart, sound.manned.open'⟩, ⟨next.room, next.done⟩, ?_⟩
    show counted.tasks.length = counted.result.outcomes +
      counted.running.length +
        (pending counted.running _).toNat + missed
    rw [next.idle, outcomes]
    simp only [pending, Option.isSome_some, Bool.true_or,
      Bool.toNat_true] at booked
    simp only [Bool.toNat_false, counted]
    omega
  · exact sound

theorem raced_sound (sound : Sound batch missed) (task : Nat) :
    Sound (batch.raced task) missed := by
  unfold raced
  split
  · rename_i members last pluginId outcome place found
    split
    · rename_i left
      simp only [Bool.and_eq_true, Bool.not_eq_true'] at left
      have booked := sound.booked
      unfold Booked at booked
      have waits : pending batch.running batch.place = true := by
        rw [place]
        simp only [pending, Option.isSome_none, Bool.false_or,
          Bool.not_eq_true', List.all_eq_false]
        exact ⟨task, by simpa using left.1, by simpa using left.2⟩
      rw [waits] at booked
      refine ⟨⟨sound.manned.claimed, sound.manned.batch',
        sound.manned.workers, sound.manned.keys, sound.manned.known,
        sound.manned.apart, sound.manned.open'⟩,
        ⟨fun _ none' => (by cases none'), fun none' => (by cases none')⟩, ?_⟩
      exact booked
    · exact sound
  · exact sound

/-- What leaves untimely is missed. -/
def misses (batch : Batch) (task : Nat) : Bool :=
  batch.leaves task && !batch.awaits task

theorem removed_eq (batch : Batch) (task : Nat) :
    (batch.leaves task = false ∧ batch.removed task = batch) ∨
      ∃ pluginId outcome,
        batch.tasks[task]? = some ⟨pluginId, some outcome⟩ ∧
          task ∈ batch.running ∧ batch.leaves task = true ∧
          batch.removed task =
            { batch with
              running := batch.running.filter (· != task)
              runningPlugins :=
                batch.runningPlugins.filter (· != pluginId) } := by
  cases found : batch.tasks[task]? with
  | none => exact .inl ⟨by simp [leaves, found], by simp [removed, found]⟩
  | some other =>
      obtain ⟨pluginId, outcome⟩ := other
      cases outcome with
      | none => exact .inl ⟨by simp [leaves, found], by simp [removed, found]⟩
      | some outcome =>
          by_cases runs : task ∈ batch.running
          · refine .inr ⟨pluginId, outcome, rfl, runs, ?_, ?_⟩
            · simp [leaves, found, runs]
            · simp [removed, found, runs]
          · exact .inl ⟨by simp [leaves, runs], by simp [removed, found, runs]⟩

theorem removed_length (manned : Manned batch) {task : Nat}
    (runs : task ∈ batch.running) :
    (batch.running.filter (· != task)).length + 1 =
      batch.running.length := by
  rw [← manned.keys.erase_eq_filter, List.length_erase_of_mem runs]
  have filled := List.length_pos_of_mem runs
  omega

theorem all_removed (members : List Nat) (task : Nat) :
    members.all (batch.running.filter (· != task)).contains =
      (members.all batch.running.contains && !members.contains task) := by
  rw [Bool.eq_iff_iff]
  simp only [List.all_eq_true, List.contains_eq_mem, decide_eq_true_eq,
    List.mem_filter, bne_iff_ne, ne_eq, Bool.and_eq_true, Bool.not_eq_true',
    decide_eq_false_iff_not]
  constructor
  · intro stay
    exact ⟨fun member listed => (stay member listed).1,
      fun listed => (stay task listed).2 rfl⟩
  · rintro ⟨stay, absent⟩ member listed
    exact ⟨stay member listed, fun same => absent (same ▸ listed)⟩

/-- What leaves is the first to leave the race, or it is missed. -/
theorem pending_removed (batch : Batch) (task : Nat) :
    (pending (batch.running.filter (· != task)) batch.place).toNat +
        (!batch.awaits task).toNat =
      (pending batch.running batch.place).toNat + 1 := by
  cases place : batch.place with
  | race members winner last =>
      cases winner with
      | some outcome => simp [pending, awaits, place]
      | none =>
          simp only [pending, awaits, place, Option.isSome_none,
            Bool.false_or, all_removed]
          cases members.all batch.running.contains <;>
            cases members.contains task <;> rfl
  | _ => simp [pending, awaits, place]

theorem removed_sound (sound : Sound batch missed) (task : Nat) :
    Sound (batch.removed task) (missed + (batch.misses task).toNat) := by
  rcases removed_eq batch task with
    ⟨stays, same⟩ | ⟨pluginId, outcome, found, runs, leaves, changed⟩
  · rw [same, misses, stays]
    exact sound
  · rw [changed]
    refine ⟨removed_manned sound.manned found runs, ?_, ?_⟩
    · constructor
      · intro other claims
        obtain ⟨free, room, absent⟩ := sound.placed.room other claims
        refine ⟨Nat.lt_of_le_of_lt (List.length_filter_le _ _) free, room, ?_⟩
        exact fun member => absent (List.mem_filter.mp member).1
      · intro resolved
        have empty := sound.placed.done resolved
        rw [empty] at runs
        cases runs
    · have booked := sound.booked
      have length := removed_length sound.manned runs
      have waits := pending_removed batch task
      unfold Booked at booked ⊢
      simp only [misses, leaves, Bool.true_and]
      omega

/-- What an event makes the batch miss. -/
def missedBy (batch : Batch) : Event → Nat
  | .removed task => (batch.misses task).toNat
  | _ => 0

theorem step_sound (sound : Sound batch missed) (event : Event) :
    Sound (batch.step event) (missed + batch.missedBy event) := by
  cases event with
  | recovered =>
      simp only [step]
      split
      · rename_i place
        exact Sound.proceed sound.manned sound.booked (by rw [place]; rfl)
          (whileTop_fresh batch) _
      · exact sound
  | listed pluginIds =>
      simp only [step]
      split
      · rename_i place
        exact Sound.proceed sound.manned sound.booked (by rw [place]; rfl)
          (forNext_fresh _ _ _) _
      · exact sound
  | permitted granted => exact permitted_sound sound granted
  | leased found => exact leased_sound sound found
  | released => exact released_sound sound
  | failed => exact failed_sound sound
  | settle task outcome => exact settle_sound sound task outcome
  | removed task => exact removed_sound sound task
  | raced task => exact raced_sound sound task
  | resume => exact resume_sound sound
  | abort =>
      exact ⟨⟨sound.manned.claimed, sound.manned.batch',
        sound.manned.workers, sound.manned.keys, sound.manned.known,
        sound.manned.apart, sound.manned.open'⟩,
        ⟨sound.placed.room, sound.placed.done⟩, sound.booked⟩

theorem step_limits (batch : Batch) (event : Event) :
    (batch.step event).limits = batch.limits := by
  cases event <;>
    simp only [step, permitted, leased, released, failed, settle, removed,
      raced, resume] <;>
    repeat' split
  all_goals rfl

theorem play_limits (batch : Batch) (events : List Event) :
    (batch.play events).limits = batch.limits := by
  induction events generalizing batch with
  | nil => rfl
  | cons event rest induction =>
      exact (induction (batch.step event)).trans (step_limits batch event)

theorem start_sound (limits : Limits) (recovered : Bool)
    (cursor : Option String) (aborted : Bool) :
    Sound (start limits recovered cursor aborted) 0 := by
  have idle : Sound (start limits false cursor aborted) 0 := by
    refine ⟨⟨rfl, Nat.zero_le _, Nat.zero_le _, List.nodup_nil, ?_, ?_, ?_⟩,
      ⟨fun _ none' => (by cases none'), fun none' => (by cases none')⟩, rfl⟩
    · exact fun _ member => absurd member List.not_mem_nil
    · exact fun _ member => absurd member List.not_mem_nil
    · intro task found listed
      cases listed
  cases recovered with
  | false => exact idle
  | true =>
      exact Sound.proceed idle.manned idle.booked rfl (whileTop_fresh _) _

theorem play_sound (sound : Sound batch missed) (events : List Event) :
    ∃ total, Sound (batch.play events) (missed + total) ∧
      (total = 0 ↔ Steps step Timely batch events) := by
  induction events generalizing batch missed with
  | nil => exact ⟨0, sound, by simp [Steps]⟩
  | cons event rest induction =>
      obtain ⟨total, later, clean⟩ := induction (step_sound sound event)
      refine ⟨batch.missedBy event + total, ?_, ?_⟩
      · rw [← Nat.add_assoc]
        exact later
      · rw [Nat.add_eq_zero_iff, clean]
        refine and_congr_left' ?_
        cases event with
        | removed task =>
            simp only [missedBy, misses, Timely]
            cases batch.leaves task <;> cases batch.awaits task <;> simp
        | _ => simp [missedBy, Timely]

theorem mem_underWay {task : Nat} (member : task ∈ batch.underWay) :
    ∃ found, batch.tasks[task]? = some found ∧ found.outcome = none := by
  have unsettled := (List.mem_filter.mp member).2
  cases found : batch.tasks[task]? with
  | none => simp [found] at unsettled
  | some other => exact ⟨other, rfl, by simpa [found] using unsettled⟩

theorem Manned.underWay_subset (manned : Manned batch) :
    batch.underWay ⊆ batch.running := by
  intro task member
  obtain ⟨found, listed, fresh⟩ := mem_underWay member
  exact manned.open' task found listed fresh

/-- In every run one plugin has one execution under way and there are no more
than workers, no more is claimed than a batch, and no execution is left behind
at the end; and then the result accounts for what was claimed exactly if every
execution left while the batch awaited the first of a race with it. -/
theorem play_accounts_iff (limits : Limits) (recovered : Bool)
    (cursor : Option String) (aborted : Bool) (events : List Event) :
    let begun := start limits recovered cursor aborted
    let batch := begun.play events
    (∀ i ∈ batch.underWay, ∀ j ∈ batch.underWay,
      batch.tasks[i]?.map Task.pluginId = batch.tasks[j]?.map Task.pluginId →
        i = j) ∧
    batch.underWay.length ≤ limits.globalWorkers ∧
    batch.result.claimed = batch.tasks.length ∧
    batch.result.claimed ≤ limits.claimBatch ∧
    (batch.place = .resolved → batch.underWay = [] ∧
      (batch.result.claimed = batch.result.delivered + batch.result.retried +
          batch.result.deadLettered + batch.result.leaseLost ↔
        Steps step Timely begun events)) := by
  intro begun batch
  obtain ⟨missed, sound, timely⟩ :=
    play_sound (start_sound limits recovered cursor aborted) events
  have manned : Manned batch := sound.manned
  have inside := manned.underWay_subset
  have same : batch.limits = limits :=
    (play_limits begun events).trans (by cases recovered <;> rfl)
  refine ⟨fun i first j second =>
    manned.apart i (inside first) j (inside second), ?_, manned.claimed,
    same ▸ manned.batch', fun resolved => ?_⟩
  · have distinct : batch.underWay.Nodup := List.nodup_range.filter _
    have fewer := (distinct.subperm inside).length_le
    exact Nat.le_trans fewer (same ▸ manned.workers)
  · have empty : batch.running = [] := sound.placed.done resolved
    constructor
    · rw [empty] at inside
      exact List.subset_nil.mp inside
    · have booked : Booked batch (0 + missed) := sound.booked
      unfold Booked at booked
      rw [resolved, empty] at booked
      simp only [pending, Bool.toNat_false, List.length_nil,
        PostDeliveryBatchResult.outcomes] at booked
      rw [← timely, manned.claimed]
      omega

end Batch

/-- Two executions settle before the loop goes on. -/
def bothSettle : List Event :=
  [.listed ["a", "b"], .permitted true, .leased true, .permitted true,
    .leased true, .settle 0 .delivered, .settle 1 .delivered, .removed 0,
    .raced 0, .removed 1, .raced 1, .resume]

theorem bothSettle_missed :
    let batch := (Batch.start ⟨2, 2⟩ true none false).play bothSettle
    batch.place = .resolved ∧ batch.result = ⟨2, 1, 0, 0, 0⟩ := by
  have sorted : (Batch.start ⟨2, 2⟩ true none false).rotate ["a", "b"] =
      ["a", "b"] := by
    have distinct : ["a", "b"].dedup = ["a", "b"] := by decide
    simp only [Batch.rotate, distinct]
    exact List.mergeSort_of_pairwise (by decide)
  have listed : (Batch.start ⟨2, 2⟩ true none false).step
      (.listed ["a", "b"]) =
        { Batch.start ⟨2, 2⟩ true none false with
          place := .permit "a" ["b"] false } := by
    simp only [Batch.step, sorted]
    rfl
  intro batch
  have run : batch = Batch.play
      { Batch.start ⟨2, 2⟩ true none false with
        place := .permit "a" ["b"] false } bothSettle.tail := by
    rw [← listed]
    rfl
  rw [run]
  exact ⟨rfl, rfl⟩

end Motrix.DeliveryBatch
