import Mathlib.Data.List.Nodup
import Mathlib.Data.List.Sort
import Motrix.Lib.Except
import Motrix.Lib.JsonTree

/-!
# Relocation of a portable profile

When the root of a portable profile has moved, the paths of the database are
replaced from a snapshot that was taken at the original root.
-/

namespace Motrix.Portable

open Lib JsonTree

/-! ## The host -/

/-- Windows paths, `JSON.parse` and `JSON.stringify`.  An absolute path has a
normal form, its parts from the drive on; `join` puts parts under a root. -/
structure Host where
  normal : String → Option (List String)
  join : String → List String → String
  parse : String → Option JsonTree
  stringify : JsonTree → String

variable (host : Host)

/-- The parts of a path below a root. -/
def below (value root : String) : Option (List String) :=
  match host.normal value, host.normal root with
  | some parts, some rootParts =>
      if rootParts.isPrefixOf parts then
        some (parts.drop rootParts.length)
      else none
  | _, _ => none

def isWithinPortableRoot (value root : String) : Bool :=
  (below host value root).isSome

def relocatePortablePath (value : String) (roots : List String)
    (currentRoot : String) : String :=
  match roots.findSome? (below host value) with
  | some rest => host.join currentRoot rest
  | none => value

/-! ## Payloads -/

def PAYLOAD_PATH_KEYS : List String :=
  ["path", "paths", "saveDir", "diskPath", "finalPath", "torrentMetaPath",
    "metadataDir", "mediaMetaPath", "workspacePath", "sourcePath",
    "targetPath", "privateTargetPath", "rollbackPath", "artifactPath",
    "quarantinePath", "directory", "rootPath", "dataPath", "backupRoot",
    "snapshotDir", "controlBackupPath", "cleanupArtifactPaths",
    "artifactPaths", "outputRoot", "outputPath"]

def OPAQUE_KEYS : List String :=
  ["headers", "requestHeaders", "cookies", "config", "secrets", "script",
    "requestModifiers", "resourceValidator", "sourceMeta", "source_meta"]

mutual

def mapPayloadPaths (map : String → String) (pathField : Bool) :
    JsonTree → JsonTree
  | .string value => .string (if pathField then map value else value)
  | .array items => .array (mapItems map pathField items)
  | .object members => .object (mapMembers map members)
  | tree => tree

def mapItems (map : String → String) (pathField : Bool) :
    List JsonTree → List JsonTree
  | [] => []
  | item :: rest =>
      mapPayloadPaths map pathField item :: mapItems map pathField rest

def mapMembers (map : String → String) :
    List (String × JsonTree) → List (String × JsonTree)
  | [] => []
  | member :: rest => mapMember map member :: mapMembers map rest

def mapMember (map : String → String) :
    String × JsonTree → String × JsonTree
  | (key, item) =>
      (key, if OPAQUE_KEYS.contains key then item
        else mapPayloadPaths map (PAYLOAD_PATH_KEYS.contains key) item)

end

/-! ## Columns -/

inductive SqliteValue where
  | text (value : String)
  | number (value : Rat)
  | null
  deriving DecidableEq

def PATH_COLUMNS : List (String × List String) :=
  [("tasks", ["save_dir", "final_path", "torrent_meta_path"]),
    ("task_instances", ["disk_path", "payload"]),
    ("task_files", ["path"]),
    ("plugin_finalize_journals",
      ["plan_json", "source_identity_json", "target_identity_json"]),
    ("plugin_post_deliveries", ["payload_json"])]

def EVIDENCE_COLUMNS : List (String × List String) :=
  [("tasks", ["agg_status"]),
    ("task_instances", ["motrix_id", "status", "transition_phase"])]

def JSON_COLUMNS : List String :=
  ["error_detail_params", "payload", "plan_json", "source_identity_json",
    "target_identity_json", "payload_json"]

def pathColumns (table : String) : List String :=
  (PATH_COLUMNS.lookup table).getD []

/-- `JSON.parse`, which throws. -/
def parseJson (text : String) : Except String JsonTree :=
  match host.parse text with
  | some tree => pure tree
  | none => throw "SyntaxError"

def mapColumn (name : String) (value : SqliteValue)
    (sourceRoot targetRoot : String) : Except String SqliteValue :=
  match value with
  | .text text =>
      if JSON_COLUMNS.contains name then do
        let tree ← parseJson host text
        pure (.text (host.stringify (mapPayloadPaths
          (fun item => relocatePortablePath host item [sourceRoot] targetRoot)
          false tree)))
      else
        pure (.text (relocatePortablePath host text [sourceRoot] targetRoot))
  | other => pure other

def equivalentColumn (name : String) (left right : SqliteValue) :
    Except String Bool :=
  match left, right with
  | .text left, .text right =>
      if JSON_COLUMNS.contains name then do
        let leftTree ← parseJson host left
        let rightTree ← parseJson host right
        pure (same leftTree rightTree)
      else pure (left == right)
  | left, right => pure (left == right)

/-! ## Tables -/

/-- What `PRAGMA table_info` tells of the columns, with their place in the
primary key.  No path is part of a primary key. -/
structure Schema where
  info : String → List (String × Nat)
  apart : ∀ table, ∀ column ∈ info table, 0 < column.2 →
    column.1 ∉ pathColumns table

namespace Schema

variable (schema : Schema) (table : String)

def keys : List String :=
  (((schema.info table).filter fun column =>
    decide (0 < column.2)).insertionSort fun first second =>
      first.2 ≤ second.2).map Prod.fst

def present (names : List String) : List String :=
  names.filter ((schema.info table).map Prod.fst).contains

def columns : List String :=
  schema.present table (pathColumns table)

def evidence : List String :=
  schema.present table ((EVIDENCE_COLUMNS.lookup table).getD [])

end Schema

abbrev Row := String → SqliteValue

abbrev Record := List (String × SqliteValue)

abbrev Database := String → List Row

abbrev Snapshot := String → Option (List Record)

/-- No two rows of a table have the same primary key. -/
def Unique (schema : Schema) (db : Database) : Prop :=
  ∀ table, ((db table).map fun row => (schema.keys table).map row).Nodup

def captureRow (names : List String) (row : Row) : Record :=
  names.map fun name => (name, row name)

def TABLES : List String :=
  PATH_COLUMNS.map Prod.fst

def capturePortableDatabase (schema : Schema) (db : Database)
    (tables : List String) : Except String Snapshot :=
  if tables.all TABLES.contains then
    pure fun table =>
      if tables.contains table && !(schema.keys table).isEmpty &&
          !(schema.columns table).isEmpty then
        some ((db table).map (captureRow
          (schema.keys table ++ schema.columns table ++
            schema.evidence table).eraseDups))
      else none
  else throw "Unknown portable snapshot table"

/-- What `name = ?` means; nothing equals `NULL`. -/
def sqlEquals (left right : SqliteValue) : Bool :=
  left == right && left != .null

def isKeyed (keys : List String) (values : List SqliteValue) (row : Row) :
    Bool :=
  (keys.zip values).all fun pair => sqlEquals (row pair.1) pair.2

def keyValues (keys : List String) (record : Record) :
    Except String (List SqliteValue) :=
  keys.mapM fun name =>
    match record.lookup name with
    | some value => pure value
    | none => throw "Portable relocation snapshot has no key"

/-! ## The relocation of a row -/

/-- The roots of one call. -/
structure Roots where
  sourceRoot : String
  currentRoot : String
  attemptedRoots : List String

def columnChange (roots : Roots) (name : String)
    (original current : SqliteValue) : Except String (Option SqliteValue) := do
  let mapped ← mapColumn host name original roots.sourceRoot roots.currentRoot
  let earlier ← roots.attemptedRoots.mapM
    (mapColumn host name original roots.sourceRoot)
  let allowed := original :: earlier
  if ← allowed.allM (equivalentColumn host name · mapped) then
    pure none
  else if ← allowed.anyM (equivalentColumn host name · current) then
    if ← equivalentColumn host name current mapped then pure none
    else pure (some mapped)
  else throw "Portable relocation record was edited during recovery"

def rowChanges (roots : Roots) (record : Record) (current : Row) :
    List String → Except String Record
  | [] => pure []
  | name :: rest => do
      match record.lookup name with
      | none => throw "Portable relocation snapshot is incomplete"
      | some original =>
          let change ← columnChange host roots name original (current name)
          let others ← rowChanges roots record current rest
          pure (change.toList.map (name, ·) ++ others)

def applyChanges (changes : Record) (row : Row) : Row := fun name =>
  (changes.lookup name).getD (row name)

/-- `UPDATE … WHERE …` of the rows with a key. -/
def updateRows (keys : List String) (values : List SqliteValue)
    (changes : Record) (rows : List Row) : List Row :=
  rows.map fun row =>
    if isKeyed keys values row then applyChanges changes row else row

def relocateRow (keys columns : List String) (roots : Roots)
    (rows : List Row) (record : Record) : Except String (List Row) := do
  let values ← keyValues keys record
  match rows.find? (isKeyed keys values) with
  | none => throw "Portable relocation record changed"
  | some current =>
      let changes ← rowChanges host roots record current columns
      pure (if changes.isEmpty then rows
        else updateRows keys values changes rows)

def relocateTable (schema : Schema) (snapshot : Snapshot) (roots : Roots)
    (db : Database) (table : String) : Except String Database :=
  match (snapshot table).getD [] with
  | [] => pure db
  | records =>
      if (schema.keys table).isEmpty || (schema.columns table).isEmpty then
        throw "Portable relocation schema changed"
      else do
        let rows ← records.foldlM
          (relocateRow host (schema.keys table) (schema.columns table) roots)
          (db table)
        pure (Function.update db table rows)

/-- The tables in one transaction: a call that throws changes nothing. -/
def relocatePortableDatabase (schema : Schema) (snapshot : Snapshot)
    (roots : Roots) (db : Database) : Except String Database :=
  TABLES.foldlM (relocateTable host schema snapshot roots) db

/-! ## Attempts -/

/-- A call that throws leaves the database as it was. -/
def call (schema : Schema) (snapshot : Snapshot) (roots : Roots)
    (db : Database) : Database :=
  match relocatePortableDatabase host schema snapshot roots db with
  | .ok relocated => relocated
  | .error _ => db

structure Attempt where
  currentRoot : String
  attemptedRoots : List String
  commits : Bool

/-- So does a call that is cut short. -/
def attempt (schema : Schema) (snapshot : Snapshot) (sourceRoot : String)
    (db : Database) (attempt : Attempt) : Database :=
  if attempt.commits then
    call host schema snapshot
      { sourceRoot := sourceRoot
        currentRoot := attempt.currentRoot
        attemptedRoots := attempt.attemptedRoots } db
  else db

/-- Every call lists the roots of the calls before it. -/
def Listed : List String → List Attempt → Prop
  | _, [] => True
  | earlier, attempt :: rest =>
      earlier ⊆ attempt.attemptedRoots ∧
        Listed (earlier ++ [attempt.currentRoot]) rest

end Motrix.Portable
