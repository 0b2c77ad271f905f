import Motrix.Lib.Trace
import Motrix.Lib.Table
import Motrix.Lib.Except

/-!
# The key-value store of a plugin

Rows carry a version.  A write is unconditional or presents the version it
expects, and every write is checked against the quota of its plugin.
-/

namespace Motrix.PluginStorage

open Motrix.Lib

def DEFAULT_QUOTA : Nat := 5 <<< 20

inductive StorageError where
  | valueNotSerializable
  | quotaExceeded (projected : Int) (quota : Nat)
  | casMismatch
  deriving DecidableEq

def StorageError.code : StorageError → String
  | .valueNotSerializable => "plugin.storage.value_not_serializable"
  | .quotaExceeded _ _ => "plugin.storage.quota_exceeded"
  | .casMismatch => "plugin.storage.cas_mismatch"

structure StorageRow where
  pluginId : String
  key : String
  value : String
  size : Nat
  version : Nat
  updatedAt : Int
  deriving DecidableEq

namespace StorageRow

def slot (row : StorageRow) : String × String :=
  (row.pluginId, row.key)

def holds (slot : String × String) (row : StorageRow) : Bool :=
  row.slot == slot

def shareOf (pluginId : String) (row : StorageRow) : Int :=
  if row.pluginId = pluginId then row.size else 0

/-- The row after a write over it. -/
def rewritten (json : String) (now : Int) (row : StorageRow) : StorageRow :=
  { row with
    value := json
    size := json.utf8ByteSize
    version := row.version + 1
    updatedAt := now }

def first (slot : String × String) (json : String) (now : Int) :
    StorageRow where
  pluginId := slot.1
  key := slot.2
  value := json
  size := json.utf8ByteSize
  version := 1
  updatedAt := now

end StorageRow

abbrev StorageTable := List StorageRow

namespace StorageTable

def lookup (rows : StorageTable) (slot : String × String) :
    Option StorageRow :=
  rows.find? (StorageRow.holds slot)

/-- The version of an absent key is 0. -/
def versionOf (rows : StorageTable) (slot : String × String) : Nat :=
  ((lookup rows slot).map (·.version)).getD 0

def usedBytes (rows : StorageTable) (pluginId : String) : Int :=
  Table.total (StorageRow.shareOf pluginId) rows

def currentSize (rows : StorageTable) (slot : String × String) : Nat :=
  ((lookup rows slot).map (·.size)).getD 0

def assertQuota (quota : Nat) (rows : StorageTable)
    (slot : String × String) (projectedSize : Nat) :
    Except StorageError Unit :=
  let projected :=
    usedBytes rows slot.1 - currentSize rows slot + projectedSize
  if projected > quota then .error (.quotaExceeded projected quota)
  else .ok ()

/-- The JSON text of a value, `none` for a value that has none. -/
def serialize (json : Option String) : Except StorageError String :=
  match json with
  | none => .error .valueNotSerializable
  | some text => .ok text

/-- What precedes every write. -/
def admitted (quota : Nat) (rows : StorageTable) (slot : String × String)
    (json : Option String) : Except StorageError String := do
  let text ← serialize json
  assertQuota quota rows slot text.utf8ByteSize
  return text

def rewrite (rows : StorageTable) (slot : String × String) (json : String)
    (now : Int) : StorageTable :=
  Table.rewrite (StorageRow.holds slot) (·.rewritten json now) rows

def insert (rows : StorageTable) (slot : String × String) (json : String)
    (now : Int) : StorageTable :=
  rows ++ [.first slot json now]

end StorageTable

/-! ## Operations -/

inductive StorageOp where
  | get (slot : String × String)
  | set (slot : String × String) (json : Option String) (now : Int)
  | compareAndSet (slot : String × String) (expectedVersion : Int)
      (json : Option String) (now : Int)
  | delete (slot : String × String)
  | deleteAll (pluginId : String)

inductive StorageResult where
  | got (value : Option String) (version : Nat)
  | written (version : Nat)
  | deleted (deleted : Bool)
  | deletedAll (deleted : Nat)
  deriving DecidableEq

namespace StorageTable

def set (rows : StorageTable) (slot : String × String) (json : String)
    (now : Int) : StorageTable :=
  if (lookup rows slot).isSome then rewrite rows slot json now
  else insert rows slot json now

def written (rows : StorageTable) (slot : String × String) :
    StorageTable × Except StorageError StorageResult :=
  (rows, .ok (.written (versionOf rows slot)))

def compareAndSet (rows : StorageTable) (slot : String × String)
    (expectedVersion : Int) (json : String) (now : Int) :
    StorageTable × Except StorageError StorageResult :=
  if expectedVersion = 0 then
    if (lookup rows slot).isSome then (rows, .error .casMismatch)
    else written (insert rows slot json now) slot
  else
    match lookup rows slot with
    | none => (rows, .error .casMismatch)
    | some row =>
        if row.version = expectedVersion then
          written (rewrite rows slot json now) slot
        else
          (rows, .error .casMismatch)

def perform (quota : Nat) (rows : StorageTable) :
    StorageOp → StorageTable × Except StorageError StorageResult
  | .get slot =>
      (rows, .ok (.got ((lookup rows slot).map (·.value))
        (versionOf rows slot)))
  | .set slot json now =>
      match admitted quota rows slot json with
      | .error failure => (rows, .error failure)
      | .ok text => written (set rows slot text now) slot
  | .compareAndSet slot expectedVersion json now =>
      match admitted quota rows slot json with
      | .error failure => (rows, .error failure)
      | .ok text => compareAndSet rows slot expectedVersion text now
  | .delete slot =>
      (Table.remove StorageRow.slot slot rows,
        .ok (.deleted (lookup rows slot).isSome))
  | .deleteAll pluginId =>
      (rows.filter (·.pluginId != pluginId),
        .ok (.deletedAll (rows.filter (·.pluginId == pluginId)).length))

def apply (quota : Nat) (rows : StorageTable) (op : StorageOp) :
    StorageTable :=
  (perform quota rows op).1

def succeeds (quota : Nat) (rows : StorageTable) (op : StorageOp) : Bool :=
  (perform quota rows op).2.isOk

def run (quota : Nat) (rows : StorageTable) (ops : List StorageOp) :
    StorageTable :=
  ops.foldl (apply quota) rows

end StorageTable

namespace StorageOp

/-- The key that the operation writes when it succeeds. -/
def target : StorageOp → Option (String × String)
  | .set slot _ _ => some slot
  | .compareAndSet slot _ _ _ => some slot
  | _ => none

def deletes (slot : String × String) : StorageOp → Bool
  | .delete other => other == slot
  | .deleteAll pluginId => pluginId == slot.1
  | _ => false

end StorageOp

end Motrix.PluginStorage

/-!
# Versions and quotas over runs of the key-value store

A successful write raises the version of its key by one and nothing else
does, short of a deletion.  A deletion makes the next write start over at
version 1, so the version of a key tells nothing of what was deleted.
-/

namespace Motrix.PluginStorage

open Motrix.Lib

namespace StorageTable

variable {quota : Nat} {rows : StorageTable} {slot other : String × String}

/-! ## Lookups -/

theorem holds_iff {row : StorageRow} :
    StorageRow.holds slot row = true ↔ row.slot = slot :=
  beq_iff_eq

theorem lookup_mem {row : StorageRow} (found : lookup rows slot = some row) :
    row ∈ rows ∧ row.slot = slot :=
  ⟨List.mem_of_find?_eq_some found,
    holds_iff.mp (List.find?_some found)⟩

theorem lookup_none (absent : lookup rows slot = none) :
    ∀ row ∈ rows, row.slot ≠ slot := by
  intro row inside same
  exact List.find?_eq_none.mp absent row inside (holds_iff.mpr same)

theorem versionOf_found {row : StorageRow}
    (found : lookup rows slot = some row) :
    versionOf rows slot = row.version := by
  simp [versionOf, found]

theorem versionOf_absent (absent : lookup rows slot = none) :
    versionOf rows slot = 0 := by
  simp [versionOf, absent]

/-- A rewrite keeps the row of every key where it is. -/
theorem lookup_rewrite (json : String) (now : Int) :
    lookup (rewrite rows other json now) slot =
      (lookup rows slot).map fun row =>
        if other = slot then row.rewritten json now else row := by
  unfold lookup rewrite Table.rewrite
  rw [List.find?_map]
  have same : StorageRow.holds slot ∘ (fun row => if StorageRow.holds other row
      then row.rewritten json now else row) = StorageRow.holds slot := by
    funext row
    show StorageRow.holds slot (if _ then _ else _) = _
    split
    · rfl
    · rfl
  rw [same]
  cases found : rows.find? (StorageRow.holds slot) with
  | none => rfl
  | some row =>
      have here := holds_iff.mp (List.find?_some found)
      show some (if StorageRow.holds other row then _ else _) = some _
      simp only [holds_iff, here, @eq_comm _ slot other]

theorem lookup_insert (json : String) (now : Int)
    (absent : lookup rows other = none) :
    lookup (insert rows other json now) slot =
      if other = slot then some (.first other json now)
      else lookup rows slot := by
  unfold lookup insert
  rw [List.find?_append]
  by_cases same : other = slot
  · subst same
    have missing : rows.find? (StorageRow.holds other) = none := absent
    rw [missing, if_pos rfl, Option.none_or]
    exact List.find?_cons_of_pos (holds_iff.mpr rfl)
  · have apart : ¬StorageRow.holds slot (.first other json now) = true :=
      fun hit => same (holds_iff.mp hit)
    rw [if_neg same, List.find?_cons_of_neg apart]
    exact Option.or_none

theorem lookup_filter {stays : StorageRow → Bool}
    (unaffected : ∀ row ∈ rows, row.slot = slot → stays row = true) :
    lookup (rows.filter stays) slot = lookup rows slot := by
  unfold lookup
  induction rows with
  | nil => rfl
  | cons row rest induction =>
      have rest' := induction fun later inside =>
        unaffected later (List.mem_cons_of_mem _ inside)
      by_cases here : row.slot = slot
      · rw [List.filter_cons_of_pos (unaffected row List.mem_cons_self here),
          List.find?_cons_of_pos (holds_iff.mpr here),
          List.find?_cons_of_pos (holds_iff.mpr here)]
      · have apart : ¬StorageRow.holds slot row = true :=
          fun hit => here (holds_iff.mp hit)
        rw [List.find?_cons_of_neg apart, ← rest', List.filter_cons]
        split
        · exact List.find?_cons_of_neg apart
        · rfl

theorem lookup_set (json : String) (now : Int) (apart : other ≠ slot) :
    lookup (set rows other json now) slot = lookup rows slot := by
  unfold set
  split
  · rw [lookup_rewrite]
    simp only [if_neg apart, Option.map_id']
  · rename_i absent
    rw [lookup_insert _ _ (Option.not_isSome_iff_eq_none.mp absent),
      if_neg apart]

/-! ## What an operation does -/

/-- A write leaves the rows alone or sets its key. -/
inductive Writes (quota : Nat) (rows : StorageTable) (slot : String × String)
    (op : StorageOp) : Prop where
  | fails (unchanged : apply quota rows op = rows)
      (failed : succeeds quota rows op = false)
  | sets (json : String) (now : Int)
      (within : assertQuota quota rows slot json.utf8ByteSize = .ok ())
      (changed : apply quota rows op = set rows slot json now)
      (succeeded : succeeds quota rows op = true)

theorem admitted_ok {json : Option String} {text : String}
    (passed : admitted quota rows slot json = .ok text) :
    assertQuota quota rows slot text.utf8ByteSize = .ok () := by
  obtain ⟨serialized, _, checked⟩ := bind_eq_ok.mp passed
  obtain ⟨_, within, same⟩ := bind_eq_ok.mp checked
  rw [← pure_eq_ok.mp same]
  exact within

/-- A conditional write that succeeds is a write at the expected version. -/
theorem compareAndSet_cases (rows : StorageTable) (slot : String × String)
    (expectedVersion : Int) (json : String) (now : Int) :
    compareAndSet rows slot expectedVersion json now =
        (rows, .error .casMismatch) ∨
      (versionOf rows slot = expectedVersion ∧
        (lookup rows slot).isSome = decide (expectedVersion ≠ 0) ∧
        compareAndSet rows slot expectedVersion json now =
          written (set rows slot json now) slot) := by
  unfold compareAndSet set
  by_cases fresh : expectedVersion = 0
  · rw [if_pos fresh]
    cases found : lookup rows slot with
    | none =>
        right
        rw [versionOf_absent found, fresh]
        exact ⟨rfl, rfl, rfl⟩
    | some row => exact Or.inl rfl
  · rw [if_neg fresh]
    cases found : lookup rows slot with
    | none => exact Or.inl rfl
    | some row =>
        by_cases matching : (row.version : Int) = expectedVersion
        · right
          rw [versionOf_found found]
          constructor
          · exact matching
          · constructor
            · exact (decide_eq_true fresh).symm
            · exact if_pos matching
        · exact Or.inl (if_neg matching)

theorem Writes.ofError {op : StorageOp} {failure : StorageError}
    (performed : perform quota rows op = (rows, .error failure)) :
    Writes quota rows slot op := by
  apply Writes.fails
  · rw [apply, performed]
  · rw [succeeds, performed]
    rfl

theorem Writes.ofWritten {op : StorageOp} {json : String} {now : Int}
    (within : assertQuota quota rows slot json.utf8ByteSize = .ok ())
    (performed : perform quota rows op =
      written (set rows slot json now) slot) :
    Writes quota rows slot op := by
  apply Writes.sets json now within
  · rw [apply, performed]
    rfl
  · rw [succeeds, performed]
    rfl

theorem apply_write {op : StorageOp} (writes : op.target = some slot) :
    Writes quota rows slot op := by
  cases op with
  | get slot => cases writes
  | delete slot => cases writes
  | deleteAll pluginId => cases writes
  | set written json now =>
      cases writes
      cases passed : admitted quota rows slot json with
      | error failure =>
          apply @Writes.ofError quota rows slot _ failure
          simp only [perform, passed]
      | ok text =>
          apply @Writes.ofWritten quota rows slot _ text now
            (admitted_ok passed)
          simp only [perform, passed]
  | compareAndSet written expectedVersion json now =>
      cases writes
      cases passed : admitted quota rows slot json with
      | error failure =>
          apply @Writes.ofError quota rows slot _ failure
          simp only [perform, passed]
      | ok text =>
          rcases compareAndSet_cases rows slot expectedVersion text now with
            failed | ⟨_, _, changed⟩
          · apply @Writes.ofError quota rows slot _ .casMismatch
            simp only [perform, passed, failed]
          · apply @Writes.ofWritten quota rows slot _ text now
              (admitted_ok passed)
            simp only [perform, passed, changed]

theorem apply_failed {op : StorageOp}
    (failed : succeeds quota rows op = false) :
    apply quota rows op = rows := by
  cases target : op.target with
  | none =>
      cases op with
      | get slot => rfl
      | delete slot => cases failed
      | deleteAll pluginId => cases failed
      | set slot json now => cases target
      | compareAndSet slot expectedVersion json now => cases target
  | some slot =>
      cases @apply_write quota rows _ _ target with
      | fails unchanged _ => exact unchanged
      | sets _ _ _ _ succeeded => rw [succeeded] at failed; cases failed

/-! ## Versions count the writes -/

theorem versionOf_set (json : String) (now : Int) :
    versionOf (set rows slot json now) slot = versionOf rows slot + 1 := by
  unfold set
  cases found : lookup rows slot with
  | none =>
      have inserted : lookup (insert rows slot json now) slot =
          some (.first slot json now) := by
        rw [lookup_insert json now found, if_pos rfl]
      rw [versionOf_absent found]
      exact versionOf_found inserted
  | some row =>
      have rewritten : lookup (rewrite rows slot json now) slot =
          some (row.rewritten json now) := by
        rw [lookup_rewrite, found, Option.map_some, if_pos rfl]
      rw [versionOf_found found]
      exact versionOf_found rewritten

/-- The operation writes the key. -/
def WritesKey (quota : Nat) (slot : String × String) (rows : StorageTable)
    (op : StorageOp) : Prop :=
  op.target = some slot ∧ succeeds quota rows op = true

theorem versionOf_apply {op : StorageOp} (stays : op.deletes slot = false) :
    (WritesKey quota slot rows op ∧
        versionOf (apply quota rows op) slot = versionOf rows slot + 1) ∨
      (¬WritesKey quota slot rows op ∧
        versionOf (apply quota rows op) slot = versionOf rows slot) := by
  cases target : op.target with
  | some written =>
      cases @apply_write quota rows _ _ target with
      | fails unchanged failed =>
          right
          rw [unchanged]
          constructor
          · intro writes
            cases failed.symm.trans writes.2
          · rfl
      | sets json now within changed succeeded =>
          rw [changed]
          by_cases same : written = slot
          · subst same
            exact Or.inl ⟨⟨target, succeeded⟩, versionOf_set json now⟩
          · right
            constructor
            · intro writes
              exact same (Option.some.inj (target.symm.trans writes.1))
            · unfold versionOf
              rw [lookup_set json now same]
  | none =>
      right
      constructor
      · intro writes
        cases target.symm.trans writes.1
      · cases op with
        | get other => rfl
        | set other json now => cases target
        | compareAndSet other expectedVersion json now => cases target
        | delete other =>
            have apart : other ≠ slot := ne_of_beq_false stays
            have kept : lookup (Table.remove StorageRow.slot other rows) slot =
                lookup rows slot := by
              apply lookup_filter
              intro row _ here
              exact decide_eq_true fun same => apart (same.symm.trans here)
            show versionOf (Table.remove StorageRow.slot other rows) slot = _
            unfold versionOf
            rw [kept]
        | deleteAll pluginId =>
            have apart : pluginId ≠ slot.1 := ne_of_beq_false stays
            have kept : lookup (rows.filter (·.pluginId != pluginId)) slot =
                lookup rows slot := by
              apply lookup_filter
              intro row _ here
              refine bne_iff_ne.mpr fun same => apart ?_
              rw [← same, ← here]
              rfl
            show versionOf (rows.filter (·.pluginId != pluginId)) slot = _
            unfold versionOf
            rw [kept]

/-- Neither a write nor a deletion of the key. -/
def Untouched (quota : Nat) (slot : String × String) (rows : StorageTable)
    (op : StorageOp) : Prop :=
  ¬WritesKey quota slot rows op ∧ op.deletes slot = false

theorem versionOf_run {ops : List StorageOp}
    (stays : ∀ op ∈ ops, op.deletes slot = false) :
    versionOf rows slot ≤ versionOf (run quota rows ops) slot ∧
      (versionOf (run quota rows ops) slot = versionOf rows slot →
        Steps (apply quota) (Untouched quota slot) rows ops) := by
  induction ops generalizing rows with
  | nil => exact ⟨Nat.le_refl _, fun _ => trivial⟩
  | cons op rest induction =>
      have first := stays op List.mem_cons_self
      obtain ⟨grows, quiet⟩ := @induction (apply quota rows op)
        fun later inside => stays later (List.mem_cons_of_mem _ inside)
      show versionOf rows slot ≤ versionOf (run quota (apply quota rows op)
        rest) slot ∧ (versionOf (run quota (apply quota rows op) rest) slot =
          versionOf rows slot → _)
      rcases @versionOf_apply quota rows _ _ first with
        ⟨_, raised⟩ | ⟨idle, same⟩
      · rw [raised] at grows
        constructor
        · omega
        · intro returned
          omega
      · rw [same] at grows quiet
        exact ⟨grows, fun returned => ⟨⟨idle, first⟩, quiet returned⟩⟩

/-! ## Quotas -/

structure WithinQuota (quota : Nat) (rows : StorageTable) : Prop where
  distinct : Table.Distinct StorageRow.slot rows
  bounded : ∀ pluginId, usedBytes rows pluginId ≤ quota

theorem usedBytes_filter (stays : StorageRow → Bool) (pluginId : String) :
    usedBytes (rows.filter stays) pluginId ≤ usedBytes rows pluginId := by
  induction rows with
  | nil => exact Int.le_refl _
  | cons row rest induction =>
      have share : 0 ≤ row.shareOf pluginId := by
        unfold StorageRow.shareOf
        split
        · exact Int.natCast_nonneg _
        · exact Int.le_refl _
      have split : usedBytes (row :: rest) pluginId =
          row.shareOf pluginId + usedBytes rest pluginId := rfl
      rw [List.filter_cons]
      split
      · show row.shareOf pluginId + usedBytes (rest.filter stays) pluginId ≤ _
        omega
      · omega

theorem usedBytes_set (distinct : Table.Distinct StorageRow.slot rows)
    (json : String) (now : Int) (pluginId : String) :
    usedBytes (set rows slot json now) pluginId =
      usedBytes rows pluginId +
        if slot.1 = pluginId then
          (json.utf8ByteSize : Int) - currentSize rows slot
        else 0 := by
  unfold set
  cases found : lookup rows slot with
  | none =>
      have size : currentSize rows slot = 0 := by
        simp [currentSize, found]
      have share : Table.total (StorageRow.shareOf pluginId)
          [StorageRow.first slot json now] =
            if slot.1 = pluginId then (json.utf8ByteSize : Int) else 0 :=
        add_zero _
      rw [size]
      show Table.total _ (rows ++ [StorageRow.first slot json now]) = _
      rw [Table.total_append, share]
      simp [usedBytes]
  | some row =>
      obtain ⟨inside, here⟩ := lookup_mem found
      have size : currentSize rows slot = row.size := by
        simp [currentSize, found]
      have named : row.pluginId = slot.1 := congrArg Prod.fst here
      show Table.total _ (Table.rewrite _ _ rows) = _
      rw [Table.total_rewrite distinct inside (holds_iff.mpr here)
        fun other _ hit => (holds_iff.mp hit).trans here.symm, size]
      show usedBytes rows pluginId -
          (if row.pluginId = pluginId then (row.size : Int) else 0) +
        (if row.pluginId = pluginId then (json.utf8ByteSize : Int) else 0) = _
      rw [named]
      split
      · omega
      · omega

theorem WithinQuota.set (held : WithinQuota quota rows) {json : String}
    (within : assertQuota quota rows slot json.utf8ByteSize = .ok ())
    (now : Int) : WithinQuota quota (set rows slot json now) := by
  have room : usedBytes rows slot.1 - currentSize rows slot +
      json.utf8ByteSize ≤ quota := by
    unfold assertQuota at within
    by_cases exceeds : usedBytes rows slot.1 - currentSize rows slot +
        json.utf8ByteSize > quota
    · rw [if_pos exceeds] at within
      cases within
    · omega
  constructor
  · unfold StorageTable.set
    split
    · exact held.distinct.rewrite fun _ => rfl
    · rename_i absent
      apply held.distinct.concat
      exact lookup_none (Option.not_isSome_iff_eq_none.mp absent)
  · intro pluginId
    have bounded := held.bounded pluginId
    rw [usedBytes_set held.distinct]
    split
    · rename_i same
      subst same
      omega
    · omega

theorem WithinQuota.apply (held : WithinQuota quota rows) (op : StorageOp) :
    WithinQuota quota (apply quota rows op) := by
  cases target : op.target with
  | some slot =>
      cases @apply_write quota rows _ _ target with
      | fails unchanged _ =>
          rw [unchanged]
          exact held
      | sets json now within changed _ =>
          rw [changed]
          exact held.set within now
  | none =>
      cases op with
      | get slot => exact held
      | set slot json now => cases target
      | compareAndSet slot expectedVersion json now => cases target
      | delete slot =>
          constructor
          · exact held.distinct.remove slot
          · intro pluginId
            exact Int.le_trans (usedBytes_filter _ _) (held.bounded pluginId)
      | deleteAll uninstalled =>
          constructor
          · exact held.distinct.sublist (List.filter_sublist.map _)
          · intro pluginId
            exact Int.le_trans (usedBytes_filter _ _) (held.bounded pluginId)

theorem WithinQuota.run (held : WithinQuota quota rows)
    (ops : List StorageOp) : WithinQuota quota (run quota rows ops) := by
  induction ops generalizing rows with
  | nil => exact held
  | cons op rest induction => exact induction (held.apply op)

theorem run_withinQuota (quota : Nat) (ops : List StorageOp) :
    WithinQuota quota (run quota [] ops) := by
  apply WithinQuota.run
  constructor
  · exact List.nodup_nil
  · intro pluginId
    exact Int.natCast_nonneg quota

/-! ## Conditional writes -/

/-- What conditional writes promise in the state that a run has reached. -/
structure Conditional (quota : Nat) (rows : StorageTable) : Prop where
  untouched_iff : ∀ slot value version between json now,
    perform quota rows (.get slot) = (rows, .ok (.got value version)) →
    succeeds quota (run quota rows between)
      (.compareAndSet slot version json now) = true →
    (Steps (apply quota) (Untouched quota slot) rows between ↔
      ∀ op ∈ between, op.deletes slot = false)
  absent : ∀ slot json now,
    succeeds quota rows (.compareAndSet slot 0 json now) = true →
    lookup rows slot = none
  unchanged : ∀ op, succeeds quota rows op = false →
    apply quota rows op = rows
  bounded : ∀ pluginId, usedBytes rows pluginId ≤ quota

theorem compareAndSet_succeeds {expectedVersion : Int}
    {json : Option String} {now : Int}
    (succeeded : succeeds quota rows
      (.compareAndSet slot expectedVersion json now) = true) :
    versionOf rows slot = expectedVersion ∧
      (lookup rows slot).isSome = decide (expectedVersion ≠ 0) := by
  cases passed : admitted quota rows slot json with
  | error failure =>
      simp only [succeeds, perform, passed, Except.isOk, Except.toBool,
        Bool.false_eq_true] at succeeded
  | ok text =>
      rcases compareAndSet_cases rows slot expectedVersion text now with
        failed | ⟨version, present, _⟩
      · simp only [succeeds, perform, passed, failed, Except.isOk,
          Except.toBool, Bool.false_eq_true] at succeeded
      · exact ⟨version, present⟩

theorem untouched_stays {ops : List StorageOp}
    (steps : Steps (apply quota) (Untouched quota slot) rows ops) :
    ∀ op ∈ ops, op.deletes slot = false := by
  induction ops generalizing rows with
  | nil =>
      intro op inside
      cases inside
  | cons first rest induction =>
      intro op inside
      rcases List.mem_cons.mp inside with rfl | later
      · exact steps.1.2
      · exact induction steps.2 op later

/-- Between a read and a conditional write at the version read, the key is
untouched exactly when it is not deleted. -/
theorem run_conditional (quota : Nat) (ops : List StorageOp) :
    Conditional quota (run quota [] ops) := by
  constructor
  · intro slot value version between json now read succeeded
    constructor
    · exact untouched_stays
    · intro stays
      have before : versionOf (run quota [] ops) slot = version := by
        injection read with _ answered
        injection answered with got
        injection got
      obtain ⟨after, _⟩ := compareAndSet_succeeds succeeded
      obtain ⟨_, quiet⟩ := @versionOf_run quota (run quota [] ops)
        _ _ stays
      apply quiet
      omega
  · intro slot json now succeeded
    obtain ⟨_, present⟩ := compareAndSet_succeeds succeeded
    exact Option.not_isSome_iff_eq_none.mp (by simp [present])
  · intro op
    exact apply_failed
  · exact (run_withinQuota quota ops).bounded

/-- A key is deleted and set again between the read and the write. -/
theorem recreated_overwritten :
    let slot := ("plugin", "key")
    let rows := run DEFAULT_QUOTA [] [.set slot (some "1") 0]
    let between : List StorageOp := [.delete slot, .set slot (some "2") 1]
    perform DEFAULT_QUOTA rows (.get slot) = (rows, .ok (.got (some "1") 1)) ∧
      succeeds DEFAULT_QUOTA (run DEFAULT_QUOTA rows between)
        (.compareAndSet slot 1 (some "3") 2) = true ∧
      ¬Steps (apply DEFAULT_QUOTA) (Untouched DEFAULT_QUOTA slot) rows
        between := by
  refine ⟨rfl, rfl, ?_⟩
  intro steps
  cases steps.1.2

end StorageTable

end Motrix.PluginStorage
