import Motrix.Lib.Except
import Motrix.Lib.SizedMap

/-!
# Staged metadata

What plugins have staged for a task is written in one transaction.  Before the
first row is written, the whole batch is applied to a projection of the sizes
that the database has.
-/

namespace Motrix.Plugin.StagedMetadata

open Motrix.Lib

def DEFAULT_METADATA_QUOTA_BYTES : Nat := 65536

inductive MetadataError where
  | valueNotSerializable (message : String)
  | quotaExceeded (message : String)
  /-- A failure of the policy check or of the caller's transaction. -/
  | other (message : String)
  deriving DecidableEq, Repr

/-! ## The table -/

/-- A row of `plugin_task_metadata`. -/
structure MetadataRow where
  taskId : String
  pluginId : String
  key : String
  value : String
  size : Nat
  updatedAt : Int
  deriving DecidableEq, Repr

/-- `PRIMARY KEY (task_id, plugin_id, key)` -/
def MetadataRow.id (row : MetadataRow) : String × String × String :=
  (row.taskId, row.pluginId, row.key)

structure MetadataTable where
  rows : List MetadataRow
  distinct : (rows.map MetadataRow.id).Nodup

/-- `INSERT … ON CONFLICT(task_id, plugin_id, key) DO UPDATE SET …` -/
def upsertRows (rows : List MetadataRow) (row : MetadataRow) :
    List MetadataRow :=
  if rows.any (·.id = row.id) then
    rows.map fun stored => if stored.id = row.id then row else stored
  else rows ++ [row]

/-- `DELETE … WHERE task_id=? AND plugin_id=? AND key=?` -/
def deleteRows (rows : List MetadataRow) (id : String × String × String) :
    List MetadataRow :=
  rows.filter fun stored => stored.id ≠ id

theorem upsertRows_distinct {rows : List MetadataRow} {row : MetadataRow}
    (distinct : (rows.map MetadataRow.id).Nodup) :
    ((upsertRows rows row).map MetadataRow.id).Nodup := by
  unfold upsertRows
  split
  · have same : (rows.map fun stored =>
        if stored.id = row.id then row else stored).map MetadataRow.id =
          rows.map MetadataRow.id := by
      rw [List.map_map]
      apply List.map_congr_left
      intro stored _
      show (if stored.id = row.id then row else stored).id = stored.id
      split
      · rename_i same
        exact same.symm
      · rfl
    rw [same]
    exact distinct
  · rename_i absent
    rw [List.map_append]
    refine List.Nodup.append distinct (List.nodup_singleton _) ?_
    intro shared old new
    obtain ⟨stored, inside, named⟩ := List.mem_map.mp old
    have found : rows.any (·.id = row.id) = true := by
      refine List.any_eq_true.mpr ⟨stored, inside, ?_⟩
      rw [decide_eq_true_iff, named]
      exact List.mem_singleton.mp new
    exact absent found

namespace MetadataTable

def upsert (table : MetadataTable) (row : MetadataRow) : MetadataTable where
  rows := upsertRows table.rows row
  distinct := upsertRows_distinct table.distinct

def delete (table : MetadataTable) (id : String × String × String) :
    MetadataTable where
  rows := deleteRows table.rows id
  distinct := table.distinct.sublist (List.filter_sublist.map MetadataRow.id)

/-- `SELECT key, size … WHERE task_id = ? AND plugin_id = ?` -/
def selectUsage (table : MetadataTable) (taskId pluginId : String) :
    List (String × Nat) :=
  (table.rows.filter fun row =>
    row.taskId = taskId ∧ row.pluginId = pluginId).map fun row =>
      (row.key, row.size)

/-- The bytes that a plugin has at a task. -/
def usedBytes (table : MetadataTable) (taskId pluginId : String) : Nat :=
  SizedMap.total (table.selectUsage taskId pluginId)

end MetadataTable

/-! ## Staged operations -/

/-- `value` is missing where the staged value is `undefined`. -/
inductive StagedMetadataOp (Value : Type) where
  | set (pluginId key : String) (value : Option Value)
  | delete (pluginId key : String)

namespace StagedMetadataOp

variable {Value : Type}

def pluginId : StagedMetadataOp Value → String
  | .set pluginId _ _ => pluginId
  | .delete pluginId _ => pluginId

def key : StagedMetadataOp Value → String
  | .set _ key _ => key
  | .delete _ key => key

end StagedMetadataOp

structure SerializedValue where
  json : String
  size : Nat
  deriving DecidableEq, Repr

structure MetadataUsage where
  total : Int
  keys : List (String × Nat)
  deriving DecidableEq, Repr

section Operations

variable {Value : Type}

/-- `stringify` gives nothing where `JSON.stringify` returns `undefined` or
throws. -/
def serializeMetadataValue (stringify : Value → Option String) :
    Option Value → Except MetadataError String
  | none =>
      throw (.valueNotSerializable
        ("plugin.metadata.value_not_serializable: " ++
          "undefined is not JSON-serializable"))
  | some value =>
      match stringify value with
      | none =>
          throw (.valueNotSerializable
            ("plugin.metadata.value_not_serializable: " ++
              "value cannot be serialized to JSON"))
      | some json => pure json

/-- The usages that the batch has loaded so far, by plugin. -/
abbrev UsageByPlugin := String → Option MetadataUsage

/-- `usageFor` -/
def usageFor (table : MetadataTable) (taskId : String)
    (usageByPlugin : UsageByPlugin) (pluginId : String) : MetadataUsage :=
  match usageByPlugin pluginId with
  | some existing => existing
  | none =>
      let keys := table.selectUsage taskId pluginId
      { total := SizedMap.total keys
        keys }

def setUsage (usageByPlugin : UsageByPlugin) (pluginId : String)
    (usage : MetadataUsage) : UsageByPlugin :=
  fun other => if other = pluginId then some usage else usageByPlugin other

/-- One operation of the batch, and what it is to write. -/
def validateOperation (stringify : Value → Option String)
    (table : MetadataTable) (taskId : String) (usageByPlugin : UsageByPlugin)
    (operation : StagedMetadataOp Value) :
    Except MetadataError (UsageByPlugin × Option SerializedValue) := do
  let usage := usageFor table taskId usageByPlugin operation.pluginId
  let currentSize := SizedMap.sizeAt usage.keys operation.key
  match operation with
  | .delete pluginId key =>
      return (setUsage usageByPlugin pluginId
        { total := usage.total - currentSize
          keys := SizedMap.erase usage.keys key }, none)
  | .set pluginId key value =>
      let json ← serializeMetadataValue stringify value
      let size := json.utf8ByteSize
      let projected := usage.total - currentSize + size
      if projected > DEFAULT_METADATA_QUOTA_BYTES then
        throw (.quotaExceeded
          ("plugin.metadata.quota_exceeded: " ++
            s!"projected usage {projected} exceeds quota " ++
            s!"{DEFAULT_METADATA_QUOTA_BYTES}"))
      else
        return (setUsage usageByPlugin pluginId
          { total := projected
            keys := SizedMap.put usage.keys key size },
          some { json, size })

/-- The values of the batch by the index of their operation. -/
def validateOperations (stringify : Value → Option String)
    (table : MetadataTable) (taskId : String) :
    UsageByPlugin → List (StagedMetadataOp Value) →
      Except MetadataError (List (Option SerializedValue))
  | _, [] => pure []
  | usageByPlugin, operation :: rest => do
      let (later, value) ←
        validateOperation stringify table taskId usageByPlugin operation
      let values ← validateOperations stringify table taskId later rest
      return value :: values

def validateStagedMetadataQuota (stringify : Value → Option String)
    (table : MetadataTable) (taskId : String)
    (operations : List (StagedMetadataOp Value)) :
    Except MetadataError (List (Option SerializedValue)) :=
  validateOperations stringify table taskId (fun _ => none) operations

/-- The rows of the batch, one after another. -/
def writeOperations (taskId : String) (now : Int) :
    MetadataTable → List (StagedMetadataOp Value) →
      List (Option SerializedValue) → Except MetadataError MetadataTable
  | table, [], _ => pure table
  | table, operation :: rest, serialized => do
      let value := serialized.head?.join
      match operation with
      | .delete pluginId key =>
          writeOperations taskId now (table.delete (taskId, pluginId, key)) rest
            serialized.tail
      | .set pluginId key _ =>
          match value with
          | none =>
              throw (.valueNotSerializable
                ("plugin.metadata.value_not_serializable: " ++
                  "staged value is missing"))
          | some value =>
              let row : MetadataRow :=
                { taskId
                  pluginId
                  key
                  value := value.json
                  size := value.size
                  updatedAt := now }
              writeOperations taskId now (table.upsert row) rest
                serialized.tail

/-- What the transaction meets before the batch is looked at. -/
structure CommitConditions where
  policyFailure : Option String
  transactionFailure : Option String
  now : Int

def requireNone : Option String → Except MetadataError Unit
  | none => pure ()
  | some failure => throw (.other failure)

def commitMetadata (stringify : Value → Option String) (table : MetadataTable)
    (taskId : String) (operations : List (StagedMetadataOp Value))
    (conditions : CommitConditions) : Except MetadataError MetadataTable := do
  requireNone conditions.policyFailure
  requireNone conditions.transactionFailure
  let serialized ←
    validateStagedMetadataQuota stringify table taskId operations
  writeOperations taskId conditions.now table operations serialized

/-- A transaction that throws leaves the table as it was. -/
def transact (table : MetadataTable)
    (outcome : Except MetadataError MetadataTable) : MetadataTable :=
  match outcome with
  | .ok committed => committed
  | .error _ => table

end Operations

end Motrix.Plugin.StagedMetadata

/-!
# The metadata quota of a batch

The projection of the sizes follows the rows: what the check has counted after
some operations is what the table would hold after them.  So a batch passes
exactly if none of its writes takes a plugin over its quota, and no sequence
of commits does.
-/

namespace Motrix.Plugin.StagedMetadata

open Motrix.Lib

variable {Value : Type}

/-! ## Rows and sizes -/

section Rows

variable {rows : List MetadataRow} {row : MetadataRow}
  {taskId pluginId : String}

def usageOf (rows : List MetadataRow) (taskId pluginId : String) :
    List (String × Nat) :=
  (rows.filter fun row =>
    row.taskId = taskId ∧ row.pluginId = pluginId).map fun row =>
      (row.key, row.size)

theorem usageOf_cons : usageOf (row :: rows) taskId pluginId =
    if row.taskId = taskId ∧ row.pluginId = pluginId then
      (row.key, row.size) :: usageOf rows taskId pluginId
    else usageOf rows taskId pluginId := by
  unfold usageOf
  by_cases owned : row.taskId = taskId ∧ row.pluginId = pluginId
  · rw [if_pos owned, List.filter_cons_of_pos (by simpa using owned)]
    rfl
  · rw [if_neg owned, List.filter_cons_of_neg (by simpa using owned)]

/-- The usage of a pair has each of its keys once. -/
theorem usageOf_distinct (distinct : (rows.map MetadataRow.id).Nodup) :
    ((usageOf rows taskId pluginId).map Prod.fst).Nodup := by
  unfold usageOf
  rw [List.map_map]
  refine List.Nodup.map_on ?_ ((List.Nodup.of_map _ distinct).filter _)
  intro left leftInside right rightInside same
  obtain ⟨leftInside, leftOwned⟩ := List.mem_filter.mp leftInside
  obtain ⟨rightInside, rightOwned⟩ := List.mem_filter.mp rightInside
  simp only [decide_eq_true_eq] at leftOwned rightOwned
  refine List.inj_on_of_nodup_map distinct leftInside rightInside ?_
  unfold MetadataRow.id
  rw [leftOwned.1, rightOwned.1, leftOwned.2, rightOwned.2]
  exact congrArg (fun key => (taskId, pluginId, key)) same

theorem any_id_iff (owned : row.taskId = taskId ∧ row.pluginId = pluginId) :
    rows.any (·.id = row.id) =
      (usageOf rows taskId pluginId).any (·.1 = row.key) := by
  induction rows with
  | nil => rfl
  | cons stored rest induction =>
      rw [List.any_cons, usageOf_cons, induction]
      by_cases same : stored.taskId = taskId ∧ stored.pluginId = pluginId
      · rw [if_pos same, List.any_cons]
        congr 1
        simp [MetadataRow.id, owned.1, owned.2, same.1, same.2]
      · rw [if_neg same]
        have apart : ¬ stored.id = row.id := by
          intro equal
          simp only [MetadataRow.id, Prod.mk.injEq] at equal
          exact same ⟨equal.1.trans owned.1, equal.2.1.trans owned.2⟩
        rw [decide_eq_false apart, Bool.false_or]

theorem usageOf_rewrite
    (owned : row.taskId = taskId ∧ row.pluginId = pluginId) :
    usageOf (rows.map fun stored => if stored.id = row.id then row else stored)
        taskId pluginId =
      (usageOf rows taskId pluginId).map fun entry =>
        if entry.1 = row.key then (row.key, row.size) else entry := by
  induction rows with
  | nil => rfl
  | cons stored rest induction =>
      rw [List.map_cons, usageOf_cons, usageOf_cons, induction]
      by_cases same : stored.id = row.id
      · have shared : stored.taskId = taskId ∧ stored.pluginId = pluginId ∧
            stored.key = row.key := by
          simp only [MetadataRow.id, Prod.mk.injEq] at same
          exact ⟨same.1.trans owned.1, same.2.1.trans owned.2, same.2.2⟩
        rw [if_pos same, if_pos owned, if_pos ⟨shared.1, shared.2.1⟩,
          List.map_cons, if_pos shared.2.2]
      · rw [if_neg same]
        by_cases pair : stored.taskId = taskId ∧ stored.pluginId = pluginId
        · have differs : stored.key ≠ row.key := by
            intro equal
            apply same
            unfold MetadataRow.id
            rw [pair.1, pair.2, owned.1, owned.2, equal]
          rw [if_pos pair, if_pos pair, List.map_cons, if_neg differs]
        · rw [if_neg pair, if_neg pair]

theorem usageOf_append (first last : List MetadataRow) :
    usageOf (first ++ last) taskId pluginId =
      usageOf first taskId pluginId ++ usageOf last taskId pluginId := by
  unfold usageOf
  rw [List.filter_append, List.map_append]

/-- A row that is written is put into the usage of its pair. -/
theorem usageOf_upsert
    (owned : row.taskId = taskId ∧ row.pluginId = pluginId) :
    usageOf (upsertRows rows row) taskId pluginId =
      SizedMap.put (usageOf rows taskId pluginId) row.key row.size := by
  unfold upsertRows SizedMap.put
  rw [any_id_iff owned]
  split
  · exact usageOf_rewrite owned
  · rw [usageOf_append, usageOf_cons, if_pos owned]
    rfl

theorem usageOf_upsert_other
    (other : ¬ (row.taskId = taskId ∧ row.pluginId = pluginId)) :
    usageOf (upsertRows rows row) taskId pluginId =
      usageOf rows taskId pluginId := by
  unfold upsertRows
  split
  · clear * - other
    induction rows with
    | nil => rfl
    | cons stored rest induction =>
        rw [List.map_cons, usageOf_cons, usageOf_cons, induction]
        by_cases same : stored.id = row.id
        · have apart :
              ¬ (stored.taskId = taskId ∧ stored.pluginId = pluginId) := by
            simp only [MetadataRow.id, Prod.mk.injEq] at same
            rw [same.1, same.2.1]
            exact other
          rw [if_pos same, if_neg other, if_neg apart]
        · rw [if_neg same]
  · rw [usageOf_append, usageOf_cons, if_neg other]
    exact List.append_nil _

/-- A row that is deleted is erased from the usage of its pair. -/
theorem usageOf_delete {key : String} :
    usageOf (deleteRows rows (taskId, pluginId, key)) taskId pluginId =
      SizedMap.erase (usageOf rows taskId pluginId) key := by
  unfold deleteRows
  induction rows with
  | nil => rfl
  | cons stored rest induction =>
      rw [usageOf_cons]
      by_cases pair : stored.taskId = taskId ∧ stored.pluginId = pluginId
      · rw [if_pos pair]
        unfold SizedMap.erase at induction ⊢
        by_cases same : stored.key = key
        · rw [List.filter_cons_of_neg (by
              simp [MetadataRow.id, pair.1, pair.2, same]),
            List.filter_cons_of_neg (by simp [same]), induction]
        · rw [List.filter_cons_of_pos (by
              simp [MetadataRow.id, same]),
            List.filter_cons_of_pos (by simp [same]), usageOf_cons,
            if_pos pair, induction]
      · rw [if_neg pair]
        have kept : stored.id ≠ (taskId, pluginId, key) := by
          intro equal
          simp only [MetadataRow.id, Prod.mk.injEq] at equal
          exact pair ⟨equal.1, equal.2.1⟩
        rw [List.filter_cons_of_pos (by simpa using kept), usageOf_cons,
          if_neg pair, induction]

theorem usageOf_delete_other {key otherTask otherPlugin : String}
    (other : ¬ (otherTask = taskId ∧ otherPlugin = pluginId)) :
    usageOf (deleteRows rows (otherTask, otherPlugin, key)) taskId pluginId =
      usageOf rows taskId pluginId := by
  unfold deleteRows
  induction rows with
  | nil => rfl
  | cons stored rest induction =>
      rw [usageOf_cons]
      by_cases pair : stored.taskId = taskId ∧ stored.pluginId = pluginId
      · have kept : stored.id ≠ (otherTask, otherPlugin, key) := by
          intro equal
          simp only [MetadataRow.id, Prod.mk.injEq] at equal
          exact other ⟨equal.1.symm.trans pair.1, equal.2.1.symm.trans pair.2⟩
        rw [List.filter_cons_of_pos (by simpa using kept), usageOf_cons,
          if_pos pair, if_pos pair, induction]
      · rw [if_neg pair, List.filter_cons]
        split
        · rw [usageOf_cons, if_neg pair, induction]
        · exact induction

end Rows

/-! ## Applying a batch -/

section Batch

variable {stringify : Value → Option String} {table : MetadataTable}
  {taskId : String}

/-- The value of an operation can be written. -/
def Serializes (stringify : Value → Option String) :
    StagedMetadataOp Value → Prop
  | .set _ _ value => (value.bind stringify).isSome = true
  | .delete _ _ => True

def StagedMetadataOp.writes : StagedMetadataOp Value → Bool
  | .set _ _ _ => true
  | .delete _ _ => false

/-- What an operation makes of the table, without any check. -/
def applyOperation (stringify : Value → Option String) (taskId : String)
    (now : Int) (table : MetadataTable) :
    StagedMetadataOp Value → MetadataTable
  | .delete pluginId key => table.delete (taskId, pluginId, key)
  | .set pluginId key value =>
      match value.bind stringify with
      | none => table
      | some json =>
          table.upsert
            { taskId
              pluginId
              key
              value := json
              size := json.utf8ByteSize
              updatedAt := now }

def applyOperations (stringify : Value → Option String) (taskId : String)
    (now : Int) (table : MetadataTable)
    (operations : List (StagedMetadataOp Value)) : MetadataTable :=
  operations.foldl (applyOperation stringify taskId now) table

theorem serialize_eq_ok {value : Option Value} {json : String} :
    serializeMetadataValue stringify value = .ok json ↔
      value.bind stringify = some json := by
  unfold serializeMetadataValue
  cases value with
  | none =>
      rw [throw_eq_ok]
      simp
  | some value =>
      rw [Option.bind_some]
      dsimp only
      cases stringify value with
      | none =>
          dsimp only
          rw [throw_eq_ok]
          simp
      | some text =>
          dsimp only
          rw [pure_eq_ok, Option.some.injEq]

/-- The usage that the check has for every plugin is that of a table. -/
def Projects (table : MetadataTable) (taskId : String)
    (usageByPlugin : UsageByPlugin) (current : MetadataTable) : Prop :=
  ∀ pluginId, usageFor table taskId usageByPlugin pluginId =
    { total := current.usedBytes taskId pluginId
      keys := current.selectUsage taskId pluginId }

theorem projects_initial :
    Projects table taskId (fun _ => none) table :=
  fun _ => rfl

theorem usageFor_set {usageByPlugin : UsageByPlugin} {pluginId other : String}
    {usage : MetadataUsage} :
    usageFor table taskId (setUsage usageByPlugin pluginId usage) other =
      if other = pluginId then usage
      else usageFor table taskId usageByPlugin other := by
  unfold usageFor setUsage
  by_cases same : other = pluginId
  · rw [if_pos same, if_pos same]
  · rw [if_neg same, if_neg same]

theorem selectUsage_distinct (table : MetadataTable)
    (taskId pluginId : String) :
    ((table.selectUsage taskId pluginId).map Prod.fst).Nodup :=
  usageOf_distinct table.distinct

/-- A plugin's usage follows what is done to another plugin's rows. -/
theorem Projects.update {usageByPlugin : UsageByPlugin}
    {current next : MetadataTable} {pluginId : String} {usage : MetadataUsage}
    (projects : Projects table taskId usageByPlugin current)
    (here : usage =
      { total := next.usedBytes taskId pluginId
        keys := next.selectUsage taskId pluginId })
    (elsewhere : ∀ other, other ≠ pluginId →
      next.selectUsage taskId other = current.selectUsage taskId other) :
    Projects table taskId (setUsage usageByPlugin pluginId usage) next := by
  intro other
  rw [usageFor_set]
  by_cases same : other = pluginId
  · rw [if_pos same, same, here]
  · rw [if_neg same, projects other]
    unfold MetadataTable.usedBytes
    rw [elsewhere other same]

section Changes

variable {current : MetadataTable} {pluginId key : String} {now : Int}

def writtenRow (taskId pluginId key json : String) (now : Int) : MetadataRow :=
  { taskId
    pluginId
    key
    value := json
    size := json.utf8ByteSize
    updatedAt := now }

theorem usedBytes_upsert (json : String) :
    (current.upsert (writtenRow taskId pluginId key json now)).usedBytes taskId
        pluginId +
      SizedMap.sizeAt (current.selectUsage taskId pluginId) key =
        current.usedBytes taskId pluginId + json.utf8ByteSize := by
  have usage : (current.upsert
      (writtenRow taskId pluginId key json now)).selectUsage taskId pluginId =
        SizedMap.put (current.selectUsage taskId pluginId) key
          json.utf8ByteSize :=
    usageOf_upsert ⟨rfl, rfl⟩
  unfold MetadataTable.usedBytes
  rw [usage]
  exact SizedMap.total_put (selectUsage_distinct current taskId pluginId)

theorem usedBytes_delete :
    (current.delete (taskId, pluginId, key)).usedBytes taskId pluginId +
        SizedMap.sizeAt (current.selectUsage taskId pluginId) key =
      current.usedBytes taskId pluginId := by
  have usage : (current.delete (taskId, pluginId, key)).selectUsage taskId
      pluginId = SizedMap.erase (current.selectUsage taskId pluginId) key :=
    usageOf_delete
  unfold MetadataTable.usedBytes
  rw [usage]
  exact SizedMap.total_erase (selectUsage_distinct current taskId pluginId)

end Changes

/-- What the check asks of one operation: that it serializes, and of a write
that its pair is within the quota afterwards. -/
def Passes (stringify : Value → Option String) (taskId : String) (now : Int)
    (current : MetadataTable) (operation : StagedMetadataOp Value) : Prop :=
  Serializes stringify operation ∧
    (operation.writes = true →
      (applyOperation stringify taskId now current operation).usedBytes taskId
        operation.pluginId ≤ DEFAULT_METADATA_QUOTA_BYTES)

section Validation

variable {usageByPlugin : UsageByPlugin} {current : MetadataTable}
  {pluginId key : String}

/-- The usages after an operation on a pair. -/
def nextUsage (usageByPlugin : UsageByPlugin) (taskId pluginId : String)
    (next : MetadataTable) : UsageByPlugin :=
  setUsage usageByPlugin pluginId
    { total := next.usedBytes taskId pluginId
      keys := next.selectUsage taskId pluginId }

theorem validate_delete
    (projects : Projects table taskId usageByPlugin current) :
    validateOperation stringify table taskId usageByPlugin
        (.delete pluginId key) =
      .ok (nextUsage usageByPlugin taskId pluginId
        (current.delete (taskId, pluginId, key)), none) := by
  have counted : (current.delete (taskId, pluginId, key)).usedBytes taskId
        pluginId + SizedMap.sizeAt (current.selectUsage taskId pluginId) key =
      current.usedBytes taskId pluginId := usedBytes_delete
  have usage : (current.delete (taskId, pluginId, key)).selectUsage taskId
      pluginId = SizedMap.erase (current.selectUsage taskId pluginId) key :=
    usageOf_delete
  have remaining : ((current.usedBytes taskId pluginId : Nat) : Int) -
      (SizedMap.sizeAt (current.selectUsage taskId pluginId) key : Nat) =
        ((current.delete (taskId, pluginId, key)).usedBytes taskId
          pluginId : Nat) := by
    omega
  unfold validateOperation nextUsage
  simp only [StagedMetadataOp.pluginId, StagedMetadataOp.key,
    projects pluginId, remaining, usage]
  rfl

theorem validate_set_iff {value : Option Value} (now : Int)
    (projects : Projects table taskId usageByPlugin current)
    {later : UsageByPlugin} {written : Option SerializedValue} :
    validateOperation stringify table taskId usageByPlugin
        (.set pluginId key value) = .ok (later, written) ↔
      ∃ json, value.bind stringify = some json ∧
        (current.upsert (writtenRow taskId pluginId key json now)).usedBytes
          taskId pluginId ≤ DEFAULT_METADATA_QUOTA_BYTES ∧
        later = nextUsage usageByPlugin taskId pluginId
          (current.upsert (writtenRow taskId pluginId key json now)) ∧
        written = some { json, size := json.utf8ByteSize } := by
  have counted (json : String) : ((current.usedBytes taskId
        pluginId : Nat) : Int) -
      (SizedMap.sizeAt (current.selectUsage taskId pluginId) key : Nat) +
        (json.utf8ByteSize : Nat) =
      ((current.upsert (writtenRow taskId pluginId key json now)).usedBytes
        taskId pluginId : Nat) := by
    have split : (current.upsert
        (writtenRow taskId pluginId key json now)).usedBytes taskId pluginId +
          SizedMap.sizeAt (current.selectUsage taskId pluginId) key =
        current.usedBytes taskId pluginId + json.utf8ByteSize :=
      usedBytes_upsert json
    omega
  have usage (json : String) : (current.upsert
      (writtenRow taskId pluginId key json now)).selectUsage taskId pluginId =
        SizedMap.put (current.selectUsage taskId pluginId) key
          json.utf8ByteSize := usageOf_upsert ⟨rfl, rfl⟩
  unfold validateOperation
  simp only [StagedMetadataOp.pluginId, StagedMetadataOp.key,
    projects pluginId, bind_eq_ok, serialize_eq_ok, counted, guard_eq_ok,
    pure_eq_ok, Prod.mk.injEq]
  unfold nextUsage
  constructor
  · rintro ⟨json, serialized, within, same, value⟩
    refine ⟨json, serialized, by omega, ?_, value.symm⟩
    rw [← same, usage json]
  · rintro ⟨json, serialized, within, same, value⟩
    refine ⟨json, serialized, by omega, ?_, value.symm⟩
    rw [same, usage json]

theorem apply_set {value : Option Value} {json : String} {now : Int}
    (serialized : value.bind stringify = some json) :
    applyOperation stringify taskId now current (.set pluginId key value) =
      current.upsert (writtenRow taskId pluginId key json now) := by
  unfold applyOperation
  dsimp only
  rw [serialized]
  rfl

/-- A change of one pair leaves the usage of the others. -/
theorem selectUsage_apply_other {operation : StagedMetadataOp Value}
    {now : Int} {otherTask other : String}
    (apart : ¬ (taskId = otherTask ∧ operation.pluginId = other)) :
    (applyOperation stringify taskId now current operation).selectUsage
        otherTask other =
      current.selectUsage otherTask other := by
  cases operation with
  | delete pluginId key => exact usageOf_delete_other apart
  | set pluginId key value =>
      cases serialized : value.bind stringify with
      | none =>
          unfold applyOperation
          dsimp only
          rw [serialized]
      | some json =>
          rw [apply_set serialized]
          exact usageOf_upsert_other apart

/-- One operation is let through exactly if it passes. -/
theorem validateOperation_iff {operation : StagedMetadataOp Value} {now : Int}
    (projects : Projects table taskId usageByPlugin current) :
    (∃ result, validateOperation stringify table taskId usageByPlugin
        operation = .ok result) ↔
      Passes stringify taskId now current operation := by
  cases operation with
  | delete pluginId key =>
      rw [validate_delete projects]
      constructor
      · exact fun _ => ⟨trivial, fun writes => by cases writes⟩
      · exact fun _ => ⟨_, rfl⟩
  | set pluginId key value =>
      constructor
      · rintro ⟨⟨later, written⟩, validated⟩
        obtain ⟨json, serialized, within, -⟩ :=
          (validate_set_iff now projects).mp validated
        refine ⟨?_, fun _ => ?_⟩
        · show (value.bind stringify).isSome = true
          rw [serialized]
          rfl
        · rw [apply_set serialized]
          exact within
      · rintro ⟨serializes, within⟩
        obtain ⟨json, serialized⟩ := Option.isSome_iff_exists.mp serializes
        have within := within rfl
        rw [apply_set serialized] at within
        exact ⟨_, (validate_set_iff now projects).mpr
          ⟨json, serialized, within, rfl, rfl⟩⟩

/-- What was let through goes on to the projection of the next table, and its
write makes that table. -/
theorem validateOperation_projects {operation : StagedMetadataOp Value}
    (now : Int) {later : UsageByPlugin} {written : Option SerializedValue}
    (projects : Projects table taskId usageByPlugin current)
    (validated : validateOperation stringify table taskId usageByPlugin
      operation = .ok (later, written)) :
    Projects table taskId later
        (applyOperation stringify taskId now current operation) ∧
      ∀ rest values, writeOperations taskId now current (operation :: rest)
          (written :: values) =
        writeOperations taskId now
          (applyOperation stringify taskId now current operation) rest
            values := by
  have others : ∀ other, other ≠ operation.pluginId →
      (applyOperation stringify taskId now current operation).selectUsage
          taskId other =
        current.selectUsage taskId other :=
    fun other apart =>
      selectUsage_apply_other fun equal => apart equal.2.symm
  cases operation with
  | delete pluginId key =>
      rw [validate_delete projects] at validated
      cases validated
      exact ⟨projects.update rfl others, fun _ _ => rfl⟩
  | set pluginId key value =>
      obtain ⟨json, serialized, -, same, value⟩ :=
        (validate_set_iff now projects).mp validated
      rw [apply_set serialized] at others ⊢
      rw [same, value]
      exact ⟨projects.update rfl others, fun _ _ => rfl⟩

end Validation

/-- Every operation passes in the table that the ones before it leave. -/
def AllPass (stringify : Value → Option String) (taskId : String)
    (now : Int) : MetadataTable → List (StagedMetadataOp Value) → Prop
  | _, [] => True
  | current, operation :: rest =>
      Passes stringify taskId now current operation ∧
        AllPass stringify taskId now
          (applyOperation stringify taskId now current operation) rest

theorem validateOperations_iff {usageByPlugin : UsageByPlugin}
    {current : MetadataTable} {now : Int}
    {operations : List (StagedMetadataOp Value)}
    (projects : Projects table taskId usageByPlugin current) :
    (∃ values, validateOperations stringify table taskId usageByPlugin
        operations = .ok values) ↔
      AllPass stringify taskId now current operations := by
  induction operations generalizing usageByPlugin current with
  | nil => exact ⟨fun _ => trivial, fun _ => ⟨[], rfl⟩⟩
  | cons operation rest induction =>
      constructor
      · rintro ⟨values, validated⟩
        obtain ⟨⟨later, written⟩, first, validated⟩ := bind_eq_ok.mp validated
        obtain ⟨others, second, -⟩ := bind_eq_ok.mp validated
        obtain ⟨next, -⟩ := validateOperation_projects now projects first
        exact ⟨(validateOperation_iff projects).mp ⟨_, first⟩,
          (induction next).mp ⟨others, second⟩⟩
      · rintro ⟨passes, allPass⟩
        obtain ⟨⟨later, written⟩, first⟩ :=
          (validateOperation_iff projects).mpr passes
        obtain ⟨next, -⟩ := validateOperation_projects now projects first
        obtain ⟨values, second⟩ := (induction next).mpr allPass
        exact ⟨written :: values, bind_eq_ok.mpr ⟨_, first,
          bind_eq_ok.mpr ⟨values, second, rfl⟩⟩⟩

/-- A batch that was let through is written as it is. -/
theorem writeOperations_eq {usageByPlugin : UsageByPlugin}
    {current : MetadataTable} {now : Int}
    {operations : List (StagedMetadataOp Value)}
    {values : List (Option SerializedValue)}
    (projects : Projects table taskId usageByPlugin current)
    (validated : validateOperations stringify table taskId usageByPlugin
      operations = .ok values) :
    writeOperations taskId now current operations values =
      .ok (applyOperations stringify taskId now current operations) := by
  induction operations generalizing usageByPlugin current values with
  | nil => rfl
  | cons operation rest induction =>
      obtain ⟨⟨later, written⟩, first, validated⟩ := bind_eq_ok.mp validated
      obtain ⟨others, second, same⟩ := bind_eq_ok.mp validated
      obtain ⟨next, writes⟩ :=
        validateOperation_projects now projects first
      rw [pure_eq_ok] at same
      rw [← same, writes rest others]
      exact induction next second

/-- Every value of the batch serializes, and no write takes its pair over the
quota. -/
structure Fits (stringify : Value → Option String) (taskId : String)
    (now : Int) (current : MetadataTable)
    (operations : List (StagedMetadataOp Value)) : Prop where
  serializes : ∀ operation ∈ operations, Serializes stringify operation
  within : ∀ prior operation rest,
    operations = prior ++ operation :: rest → operation.writes = true →
      (applyOperations stringify taskId now current
        (prior ++ [operation])).usedBytes taskId operation.pluginId ≤
          DEFAULT_METADATA_QUOTA_BYTES

theorem allPass_iff {current : MetadataTable} {now : Int}
    {operations : List (StagedMetadataOp Value)} :
    AllPass stringify taskId now current operations ↔
      Fits stringify taskId now current operations := by
  induction operations generalizing current with
  | nil =>
      refine ⟨fun _ => ⟨?_, ?_⟩, fun _ => trivial⟩
      · intro operation inside
        cases inside
      · intro prior operation rest split
        cases prior <;> cases split
  | cons first rest induction =>
      constructor
      · rintro ⟨⟨serializes, within⟩, later⟩
        obtain ⟨others, later⟩ := induction.mp later
        constructor
        · exact List.forall_mem_cons.mpr ⟨serializes, others⟩
        · intro prior operation remaining split writes
          cases prior with
          | nil =>
              cases split
              exact within writes
          | cons head prior =>
              cases split
              exact later prior operation remaining rfl writes
      · rintro ⟨serializes, within⟩
        obtain ⟨here, others⟩ := List.forall_mem_cons.mp serializes
        refine ⟨⟨here, fun writes => within [] first rest rfl writes⟩,
          induction.mpr ⟨others, ?_⟩⟩
        intro prior operation remaining split writes
        exact within (first :: prior) operation remaining
          (congrArg (first :: ·) split) writes

/-- The check accepts exactly the batches that fit. -/
theorem validateStagedMetadataQuota_iff (now : Int)
    (operations : List (StagedMetadataOp Value)) :
    (∃ values, validateStagedMetadataQuota stringify table taskId operations =
        .ok values) ↔
      Fits stringify taskId now table operations :=
  (validateOperations_iff projects_initial).trans allPass_iff

/-! ## Commits -/

def WithinQuota (table : MetadataTable) : Prop :=
  ∀ taskId pluginId,
    table.usedBytes taskId pluginId ≤ DEFAULT_METADATA_QUOTA_BYTES

theorem WithinQuota.apply {current : MetadataTable} {now : Int}
    {operation : StagedMetadataOp Value} (within : WithinQuota current)
    (passes : Passes stringify taskId now current operation) :
    WithinQuota (applyOperation stringify taskId now current operation) := by
  intro otherTask other
  by_cases same : taskId = otherTask ∧ operation.pluginId = other
  · obtain ⟨rfl, rfl⟩ := same
    cases operation with
    | set pluginId key value => exact passes.2 rfl
    | delete pluginId key =>
        have counted : (current.delete (taskId, pluginId, key)).usedBytes
              taskId pluginId +
            SizedMap.sizeAt (current.selectUsage taskId pluginId) key =
              current.usedBytes taskId pluginId := usedBytes_delete
        have before := within taskId pluginId
        show (current.delete (taskId, pluginId, key)).usedBytes taskId
          pluginId ≤ _
        omega
  · have kept : (applyOperation stringify taskId now current
        operation).selectUsage otherTask other =
          current.selectUsage otherTask other := selectUsage_apply_other same
    unfold MetadataTable.usedBytes
    rw [kept]
    exact within otherTask other

theorem WithinQuota.applyAll {current : MetadataTable} {now : Int}
    {operations : List (StagedMetadataOp Value)} (within : WithinQuota current)
    (passes : AllPass stringify taskId now current operations) :
    WithinQuota (applyOperations stringify taskId now current operations) := by
  induction operations generalizing current with
  | nil => exact within
  | cons operation rest induction =>
      exact induction (within.apply passes.1) passes.2

/-- A commit writes the whole batch, if nothing refuses it, or nothing. -/
theorem commitMetadata_cases (operations : List (StagedMetadataOp Value))
    (conditions : CommitConditions) :
    (AllPass stringify taskId conditions.now table operations ∧
        commitMetadata stringify table taskId operations conditions =
          .ok (applyOperations stringify taskId conditions.now table
            operations)) ∨
      ∃ failure, commitMetadata stringify table taskId operations conditions =
        .error failure := by
  cases outcome : commitMetadata stringify table taskId operations
      conditions with
  | error failure => exact .inr ⟨failure, rfl⟩
  | ok committed =>
      obtain ⟨-, -, rest⟩ := bind_eq_ok.mp outcome
      obtain ⟨-, -, rest⟩ := bind_eq_ok.mp rest
      obtain ⟨values, validated, written⟩ := bind_eq_ok.mp rest
      have passes : AllPass stringify taskId conditions.now table operations :=
        (validateOperations_iff projects_initial).mp ⟨values, validated⟩
      have applied : writeOperations taskId conditions.now table operations
          values = .ok (applyOperations stringify taskId conditions.now table
            operations) := writeOperations_eq projects_initial validated
      rw [applied] at written
      exact .inl ⟨passes, written.symm⟩

end Batch

/-- A commit that is asked for. -/
structure MetadataCommit (Value : Type) where
  taskId : String
  operations : List (StagedMetadataOp Value)
  conditions : CommitConditions

def commitStep (stringify : Value → Option String) (table : MetadataTable)
    (commit : MetadataCommit Value) : MetadataTable :=
  transact table
    (commitMetadata stringify table commit.taskId commit.operations
      commit.conditions)

def runCommits (stringify : Value → Option String) (table : MetadataTable)
    (commits : List (MetadataCommit Value)) : MetadataTable :=
  commits.foldl (commitStep stringify) table

theorem WithinQuota.commits {stringify : Value → Option String}
    {table : MetadataTable} (within : WithinQuota table)
    (commits : List (MetadataCommit Value)) :
    WithinQuota (runCommits stringify table commits) := by
  induction commits generalizing table with
  | nil => exact within
  | cons commit rest induction =>
      apply induction
      unfold commitStep
      rcases commitMetadata_cases commit.operations commit.conditions with
        ⟨passes, done⟩ | ⟨failure, refused⟩
      · rw [done]
        exact within.applyAll passes
      · rw [refused]
        exact within

/-- The check accepts exactly the batches none of whose writes takes its pair
over the quota, a batch that it rejects changes nothing, and no sequence of
commits takes a pair over the quota. -/
theorem commits_withinQuota (stringify : Value → Option String)
    (table : MetadataTable) :
    (∀ taskId operations now,
        (∃ values, validateStagedMetadataQuota stringify table taskId
            operations = .ok values) ↔
          Fits stringify taskId now table operations) ∧
      (∀ commit : MetadataCommit Value,
        ¬ Fits stringify commit.taskId commit.conditions.now table
            commit.operations →
          commitStep stringify table commit = table) ∧
      (WithinQuota table →
        ∀ commits, WithinQuota (runCommits stringify table commits)) := by
  refine ⟨?_, ?_, ?_⟩
  · exact fun taskId operations now =>
      validateStagedMetadataQuota_iff now operations
  · intro commit unfit
    unfold commitStep
    rcases commitMetadata_cases commit.operations commit.conditions with
      ⟨passes, -⟩ | ⟨failure, refused⟩
    · exact absurd (allPass_iff.mp passes) unfit
    · rw [refused]
      rfl
  · exact fun within commits => within.commits commits

/-! ## A batch that makes room too late -/

/-- A plugin that has all but six bytes of its quota. -/
def nearlyFull : MetadataTable where
  rows :=
    [{ taskId := "task"
       pluginId := "plugin"
       key := "large"
       value := "…"
       size := 65530
       updatedAt := 0 }]
  distinct := List.nodup_singleton _

def lateDelete : List (StagedMetadataOp String) :=
  [.set "plugin" "small" (some "0123456789"), .delete "plugin" "large"]

/-- The batch is refused, though it would leave ten bytes. -/
theorem lateDelete_refused :
    (validateStagedMetadataQuota some nearlyFull "task" lateDelete).isOk =
        false ∧
      (applyOperations some "task" 0 nearlyFull lateDelete).usedBytes "task"
        "plugin" = 10 := by
  decide +kernel

theorem nearlyFull_withinQuota :
    WithinQuota (runCommits some nearlyFull
      [{ taskId := "task"
         operations := lateDelete
         conditions :=
          { policyFailure := none
            transactionFailure := none
            now := 0 } }]) := by
  apply (commits_withinQuota some nearlyFull).2.2
  intro taskId pluginId
  unfold MetadataTable.usedBytes MetadataTable.selectUsage nearlyFull
  rw [List.filter_cons]
  split
  · show 65530 + 0 ≤ 65536
    decide
  · exact Nat.zero_le _

end Motrix.Plugin.StagedMetadata
