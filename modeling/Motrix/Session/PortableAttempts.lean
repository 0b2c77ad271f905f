import Motrix.Session.PortableReplay

/-!
# Attempts to relocate

Whatever the attempts before it have left behind, a call that goes through
brings every path of the snapshot to the root of that call.
-/

namespace Motrix.Portable

open Lib JsonTree

variable {host : Host} {schema : Schema} {snapshot : Snapshot}
  {db next : Database} {tables earlier : List String} {table sourceRoot : String}
  {records : List Record} {roots : Roots}

/-! ## The snapshot -/

theorem Schema.keys_apart (schema : Schema) (table : String) :
    ∀ name ∈ schema.keys table, name ∉ schema.columns table := by
  intro name inside among
  obtain ⟨column, listed, rfl⟩ := List.mem_map.mp inside
  rw [List.mem_insertionSort, List.mem_filter, decide_eq_true_iff] at listed
  exact schema.apart table column listed.1 listed.2 (List.mem_filter.mp among).1

theorem captureRow_lookup {names : List String} {name : String}
    (inside : name ∈ names) (row : Row) :
    (captureRow names row).lookup name = some (row name) := by
  induction names with
  | nil => cases inside
  | cons first rest induction =>
      unfold captureRow
      rw [List.map_cons, List.lookup_cons]
      cases same : name == first with
      | true =>
          exact congrArg (fun key => some (row key)) (beq_iff_eq.mp same).symm
      | false =>
          apply induction
          exact (List.mem_cons.mp inside).resolve_left fun equal =>
            absurd (beq_iff_eq.mpr equal) (Bool.eq_false_iff.mp same)

theorem captureRow_keyValues {keys names : List String}
    (inside : ∀ name ∈ keys, name ∈ names) (row : Row) :
    keyValues keys (captureRow names row) = .ok (keys.map row) := by
  induction keys with
  | nil => rfl
  | cons first rest induction =>
      obtain ⟨here, later⟩ := List.forall_mem_cons.mp inside
      have others := induction later
      unfold keyValues at others ⊢
      rw [List.mapM_cons, captureRow_lookup here, others]
      rfl

/-- The columns that a snapshot keeps of a table. -/
def capturedNames (schema : Schema) (table : String) : List String :=
  (schema.keys table ++ schema.columns table ++
    schema.evidence table).eraseDups

theorem captured_table
    (captured : capturePortableDatabase schema db tables = .ok snapshot)
    (found : snapshot table = some records) :
    table ∈ TABLES ∧ schema.keys table ≠ [] ∧
      records = (db table).map (captureRow (capturedNames schema table)) := by
  unfold capturePortableDatabase at captured
  split at captured
  · next known =>
      cases pure_eq_ok.mp captured
      simp only at found
      split at found
      · next listed =>
          rw [Bool.and_eq_true, Bool.and_eq_true] at listed
          refine ⟨?_, ?_, (Option.some.inj found).symm⟩
          · apply List.contains_iff_mem.mp
            exact List.all_eq_true.mp known table
              (List.contains_iff_mem.mp listed.1.1)
          · intro none
            simp [none] at listed
      · cases found
  · cases captured

theorem capturedNames_keys (schema : Schema) (table : String) :
    ∀ name ∈ schema.keys table, name ∈ capturedNames schema table := by
  intro name inside
  simp [capturedNames, inside]

theorem capturedNames_columns (schema : Schema) (table : String) :
    ∀ name ∈ schema.columns table, name ∈ capturedNames schema table := by
  intro name inside
  simp [capturedNames, inside]

theorem captured_distinct (unique : Unique schema db) (table : String) :
    ((db table).map (captureRow (capturedNames schema table))).Pairwise
      fun first second => keyValues (schema.keys table) first ≠
        keyValues (schema.keys table) second := by
  rw [List.pairwise_map]
  have distinct := List.pairwise_map.mp (unique table)
  apply distinct.imp
  intro first second apart same
  rw [captureRow_keyValues (capturedNames_keys schema table),
    captureRow_keyValues (capturedNames_keys schema table)] at same
  exact apart (Except.ok.inj same)

/-- A key finds its row and no other. -/
theorem Unique.find {table : String} {rows : List Row}
    (distinct : (rows.map fun row => (schema.keys table).map row).Nodup)
    {row found : Row} (inside : row ∈ rows)
    (isFound : rows.find? (isKeyed (schema.keys table)
      ((schema.keys table).map row)) = some found) : found = row := by
  have keyed := isKeyed_values (by simp) (List.find?_some isFound)
  exact List.inj_on_of_nodup_map distinct (List.mem_of_find?_eq_some isFound)
    inside keyed.symm

/-! ## What attempts leave behind -/

/-- Every path is one that an earlier call has produced; all else stays. -/
structure Holding (host : Host) (schema : Schema) (snapshot : Snapshot)
    (original : Database) (sourceRoot : String) (earlier : List String)
    (db : Database) : Prop where
  produced : ∀ table records, snapshot table = some records →
    ∀ record ∈ records, ∀ values row,
      keyValues (schema.keys table) record = .ok values →
        (db table).find? (isKeyed (schema.keys table) values) = some row →
          ∀ name ∈ schema.columns table, ∀ value,
            record.lookup name = some value →
              Produced host sourceRoot earlier name value (row name)
  others : ∀ table, ∀ name ∉ schema.columns table,
    (db table).map (· name) = (original table).map (· name)

theorem Holding.start (host : Host) (unique : Unique schema db)
    (captured : capturePortableDatabase schema db tables = .ok snapshot)
    (sourceRoot : String) :
    Holding host schema snapshot db sourceRoot [] db where
  produced := by
    intro table records found record inside values row isValues isRow name
      column value known
    obtain ⟨-, -, rfl⟩ := captured_table captured found
    obtain ⟨source, there, rfl⟩ := List.mem_map.mp inside
    rw [captureRow_keyValues (capturedNames_keys schema table)] at isValues
    cases isValues
    rw [captureRow_lookup (capturedNames_columns schema table name column),
      Option.some.injEq] at known
    rw [Unique.find (unique table) there isRow]
    exact Or.inl known
  others _ _ _ := rfl

variable {original : Database}

theorem Holding.weaken (holding : Holding host schema snapshot original
    sourceRoot earlier db) (root : String) :
    Holding host schema snapshot original sourceRoot (earlier ++ [root])
      db where
  produced := by
    intro table records found record inside values row isValues isRow name
      column value known
    apply (holding.produced table records found record inside values row
      isValues isRow name column value known).imp_right
    rintro ⟨old, among, wrote⟩
    exact ⟨old, List.mem_append_left _ among, wrote⟩
  others := holding.others

/-- What a call that goes through does to the records of a table. -/
theorem relocated_records (unique : Unique schema original)
    (captured : capturePortableDatabase schema original tables =
      .ok snapshot)
    (isNext : relocatePortableDatabase host schema snapshot roots db =
      .ok next) (found : snapshot table = some records) :
    (∀ record ∈ records, ∃ values current changes,
      keyValues (schema.keys table) record = .ok values ∧
        (db table).find? (isKeyed (schema.keys table) values) =
          some current ∧
          rowChanges host roots record current (schema.columns table) =
            .ok changes ∧
            (next table).find? (isKeyed (schema.keys table) values) =
              some (applyChanges changes current)) ∧
      ∀ name ∉ schema.columns table,
        (next table).map (· name) = (db table).map (· name) := by
  obtain ⟨isTable, -, same⟩ := captured_table captured found
  have step := relocateTables_ok (by decide) isNext table
  rw [if_pos isTable, found, Option.getD_some] at step
  have distinct := captured_distinct unique table
  rw [← same] at distinct
  obtain ⟨each, -, others⟩ :=
    relocateRows_ok (schema.keys_apart table) distinct step
  exact ⟨each, others⟩

/-- What it has read and written at a path column of a record. -/
theorem relocated_column (unique : Unique schema original)
    (captured : capturePortableDatabase schema original tables =
      .ok snapshot)
    (isNext : relocatePortableDatabase host schema snapshot roots db =
      .ok next) (found : snapshot table = some records) {record : Record}
    (inside : record ∈ records) {values : List SqliteValue}
    (isValues : keyValues (schema.keys table) record = .ok values)
    {name : String} (column : name ∈ schema.columns table)
    {value : SqliteValue} (known : record.lookup name = some value) :
    ∃ current changes,
      (db table).find? (isKeyed (schema.keys table) values) = some current ∧
        (next table).find? (isKeyed (schema.keys table) values) =
          some (applyChanges changes current) ∧
          columnChange host roots name value (current name) =
            .ok (changes.lookup name) := by
  obtain ⟨values', current, changes, isValues', isCurrent, isChanges, last⟩ :=
    (relocated_records unique captured isNext found).1 record inside
  rw [isValues] at isValues'
  cases isValues'
  obtain ⟨value', known', changed⟩ :=
    (rowChanges_lookup isChanges).1 name column
  rw [known] at known'
  cases known'
  exact ⟨current, changes, isCurrent, last, changed⟩

/-- What a call that goes through does to each record. -/
theorem Holding.relocated (holding : Holding host schema snapshot original
      roots.sourceRoot earlier db) (unique : Unique schema original)
    (captured : capturePortableDatabase schema original tables =
      .ok snapshot)
    (listed : earlier ⊆ roots.attemptedRoots)
    (isNext : relocatePortableDatabase host schema snapshot roots db =
      .ok next) :
    Holding host schema snapshot original roots.sourceRoot
        (earlier ++ [roots.currentRoot]) next ∧
      ∀ table records, snapshot table = some records →
        ∀ record ∈ records, ∀ values row,
          keyValues (schema.keys table) record = .ok values →
            (next table).find? (isKeyed (schema.keys table) values) =
              some row → ∀ name ∈ schema.columns table, ∀ value,
                record.lookup name = some value →
                  Stands host roots name value (row name) := by
  have both : ∀ table records, snapshot table = some records →
      ∀ record ∈ records, ∀ values row,
        keyValues (schema.keys table) record = .ok values →
          (next table).find? (isKeyed (schema.keys table) values) =
            some row → ∀ name ∈ schema.columns table, ∀ value,
              record.lookup name = some value →
                Stands host roots name value (row name) ∧
                  Produced host roots.sourceRoot
                    (earlier ++ [roots.currentRoot]) name value
                      (row name) := by
    intro table records found record inside values row isValues isRow name
      column value known
    obtain ⟨current, changes, isCurrent, last, changed⟩ :=
      relocated_column unique captured isNext found inside isValues column
        known
    rw [isRow] at last
    cases last
    exact columnChange_stands changed (holding.produced table records found
      record inside values current isValues isCurrent name column value known)
      listed
  refine ⟨⟨?_, ?_⟩, ?_⟩
  · intro table records found record inside values row isValues isRow name
      column value known
    exact (both table records found record inside values row isValues isRow
      name column value known).2
  · intro table name outside
    rw [← holding.others table name outside]
    cases found : snapshot table with
    | none =>
        have step := relocateTables_ok (by decide) isNext table
        split at step
        · rw [found] at step
          rw [← pure_eq_ok.mp step]
        · rw [step]
    | some records =>
        exact (relocated_records unique captured isNext found).2 name outside
  · intro table records found record inside values row isValues isRow name
      column value known
    exact (both table records found record inside values row isValues isRow
      name column value known).1

theorem Holding.attempt (holding : Holding host schema snapshot original
      sourceRoot earlier db) (unique : Unique schema original)
    (captured : capturePortableDatabase schema original tables =
      .ok snapshot) (next : Attempt)
    (listed : earlier ⊆ next.attemptedRoots) :
    Holding host schema snapshot original sourceRoot
      (earlier ++ [next.currentRoot])
        (Portable.attempt host schema snapshot sourceRoot db next) := by
  unfold Portable.attempt call
  split
  · split
    · next relocated isRelocated =>
        let roots : Roots :=
          { sourceRoot := sourceRoot
            currentRoot := next.currentRoot
            attemptedRoots := next.attemptedRoots }
        have held : Holding host schema snapshot original roots.sourceRoot
            earlier db := holding
        exact (held.relocated unique captured listed isRelocated).1
    · exact holding.weaken next.currentRoot
  · exact holding.weaken next.currentRoot

/-- Through all attempts. -/
theorem Holding.attempts (holding : Holding host schema snapshot original
      sourceRoot earlier db) (unique : Unique schema original)
    (captured : capturePortableDatabase schema original tables =
      .ok snapshot) {attempts : List Attempt}
    (listed : Listed earlier attempts) :
    Holding host schema snapshot original sourceRoot
      (earlier ++ attempts.map (·.currentRoot))
        (attempts.foldl (Portable.attempt host schema snapshot sourceRoot)
          db) := by
  induction attempts generalizing earlier db with
  | nil => simpa using holding
  | cons first rest induction =>
      have step := holding.attempt unique captured first listed.1
      have all := induction step listed.2
      simpa using all

/-! ## A call that goes through -/

/-- The value of a column at the new root.  A payload is what is printed of
the mapped tree, or a text with the value of that. -/
def Relocated (host : Host) (roots : Roots) (name : String) :
    SqliteValue → SqliteValue → Prop
  | .text original, value =>
      if JSON_COLUMNS.contains name then
        ∃ tree text, host.parse original = some tree ∧ value = .text text ∧
          let printed := host.stringify (mapPayloadPaths
            (fun item => relocatePortablePath host item [roots.sourceRoot]
              roots.currentRoot) false tree)
          text = printed ∨ ∃ left right, host.parse text = some left ∧
            host.parse printed = some right ∧ same left right = true
      else
        value = .text (relocatePortablePath host original [roots.sourceRoot]
          roots.currentRoot)
  | original, value => value = original

theorem parseJson_ok {text : String} {tree : JsonTree}
    (parsed : parseJson host text = .ok tree) : host.parse text = some tree := by
  unfold parseJson at parsed
  split at parsed
  · next found => rw [found, pure_eq_ok.mp parsed]
  · cases parsed

theorem Stands.relocated {name : String} {original value : SqliteValue}
    (stands : Stands host roots name original value) :
    Relocated host roots name original value := by
  obtain ⟨mapped, isMapped, equal⟩ := stands
  cases original with
  | text original =>
      unfold Relocated
      unfold mapColumn at isMapped
      simp only at isMapped ⊢
      split at isMapped
      · next json =>
          rw [if_pos json]
          obtain ⟨tree, parsed, isMapped⟩ := bind_eq_ok.mp isMapped
          cases pure_eq_ok.mp isMapped
          rcases equal with rfl | equal
          · exact ⟨tree, _, parseJson_ok parsed, rfl, Or.inl rfl⟩
          · cases value with
            | text text =>
                unfold equivalentColumn at equal
                simp only at equal
                rw [if_pos json] at equal
                obtain ⟨left, isLeft, equal⟩ := bind_eq_ok.mp equal
                obtain ⟨right, isRight, equal⟩ := bind_eq_ok.mp equal
                exact ⟨tree, text, parseJson_ok parsed, rfl,
                  Or.inr ⟨left, right, parseJson_ok isLeft,
                    parseJson_ok isRight, pure_eq_ok.mp equal⟩⟩
            | number number => cases equal
            | null => cases equal
      · next plain =>
          rw [if_neg plain]
          cases pure_eq_ok.mp isMapped
          rcases equal with rfl | equal
          · rfl
          · cases value with
            | text text =>
                unfold equivalentColumn at equal
                simp only at equal
                rw [if_neg plain] at equal
                exact congrArg _ (beq_iff_eq.mp (pure_eq_ok.mp equal))
            | number number => cases equal
            | null => cases equal
  | number original =>
      cases pure_eq_ok.mp isMapped
      rcases equal with rfl | equal
      · rfl
      · cases value with
        | text text => cases equal
        | number number => exact beq_iff_eq.mp (pure_eq_ok.mp equal)
        | null => cases equal
  | null =>
      cases pure_eq_ok.mp isMapped
      rcases equal with rfl | equal
      · rfl
      · cases value with
        | text text => cases equal
        | number number => cases equal
        | null => rfl

/-! ## Payloads -/

/-- Whether a text at a place is a path; nothing is said below opaque keys. -/
def pathField : Bool → List Place → Option Bool
  | field, [] => some field
  | field, .index _ :: rest => pathField field rest
  | _, .key name :: rest =>
      if OPAQUE_KEYS.contains name then none
      else pathField (PAYLOAD_PATH_KEYS.contains name) rest

def mapPart (map : String → String) : Option Bool → JsonTree → JsonTree
  | none, part => part
  | some field, part => mapPayloadPaths map field part

theorem mapItems_get (map : String → String) (field : Bool)
    (items : List JsonTree) (index : Nat) :
    (mapItems map field items)[index]? =
      items[index]?.map (mapPayloadPaths map field) := by
  induction items generalizing index with
  | nil => simp [mapItems]
  | cons item rest induction =>
      cases index with
      | zero => simp [mapItems]
      | succ index => simpa [mapItems] using induction index

theorem mapMembers_lookup (map : String → String)
    (members : List (String × JsonTree)) (name : String) :
    (mapMembers map members).lookup name = (members.lookup name).map fun item =>
      if OPAQUE_KEYS.contains name then item
      else mapPayloadPaths map (PAYLOAD_PATH_KEYS.contains name) item := by
  induction members with
  | nil => simp [mapMembers]
  | cons member rest induction =>
      obtain ⟨key, item⟩ := member
      rw [mapMembers, mapMember, List.lookup_cons, List.lookup_cons]
      cases same : name == key with
      | true => simp [beq_iff_eq.mp same]
      | false => exact induction

/-- Every part of a payload is mapped as its place says. -/
theorem mapPayloadPaths_get (map : String → String) (places : List Place)
    (field : Bool) (tree : JsonTree) :
    (mapPayloadPaths map field tree).get places =
      (tree.get places).map (mapPart map (pathField field places)) := by
  induction places generalizing field tree with
  | nil => rfl
  | cons place rest induction =>
      cases place with
      | index index =>
          cases tree with
          | array items =>
              rw [mapPayloadPaths, JsonTree.get, JsonTree.get, mapItems_get]
              cases items[index]? with
              | none => rfl
              | some item => exact induction field item
          | _ => simp [mapPayloadPaths, JsonTree.get]
      | key name =>
          cases tree with
          | object members =>
              rw [mapPayloadPaths, JsonTree.get, JsonTree.get,
                mapMembers_lookup, pathField]
              cases members.lookup name with
              | none => rfl
              | some item =>
                  cases hidden : OPAQUE_KEYS.contains name with
                  | true =>
                      simp only [if_true, Option.map_some, Option.bind_some]
                      exact Option.map_id'.symm
                  | false =>
                      simp only [Option.map_some, Option.bind_some]
                      exact induction _ item
          | _ => simp [mapPayloadPaths, JsonTree.get]

/-! ## Calls that change nothing -/

/-- The call again, with the same roots. -/
theorem call_again
    (stands : ∀ table records, snapshot table = some records →
      ∀ record ∈ records, ∀ values row,
        keyValues (schema.keys table) record = .ok values →
          (db table).find? (isKeyed (schema.keys table) values) = some row →
            ∀ name ∈ schema.columns table, ∀ value,
              record.lookup name = some value →
                Stands host roots name value (row name)) :
    call host schema snapshot roots db = db := by
  unfold call
  split
  · next relocated isRelocated =>
      funext table
      have step := relocateTables_ok (by decide) isRelocated table
      split at step
      · cases found : snapshot table with
        | none =>
            rw [found] at step
            exact (pure_eq_ok.mp step).symm
        | some records =>
            rw [found, Option.getD_some] at step
            exact relocateRows_again (stands table records found) step
      · exact step
  · rfl

/-- A row holds a path that no call can have written, in a column that the
call would change. -/
def Edited (host : Host) (schema : Schema) (snapshot : Snapshot)
    (roots : Roots) (db : Database) : Prop :=
  ∃ table records record values row name original mapped,
    snapshot table = some records ∧ record ∈ records ∧
      keyValues (schema.keys table) record = .ok values ∧
        (db table).find? (isKeyed (schema.keys table) values) = some row ∧
          name ∈ schema.columns table ∧ record.lookup name = some original ∧
            mapColumn host name original roots.sourceRoot
                roots.currentRoot = .ok mapped ∧
              (∃ value, Produced host roots.sourceRoot roots.attemptedRoots
                name original value ∧
                  equivalentColumn host name value mapped ≠ .ok true) ∧
              ∀ value, Produced host roots.sourceRoot roots.attemptedRoots
                name original value →
                  equivalentColumn host name value (row name) ≠ .ok true

theorem call_edited (unique : Unique schema original)
    (captured : capturePortableDatabase schema original tables =
      .ok snapshot) (edited : Edited host schema snapshot roots db) :
    call host schema snapshot roots db = db := by
  unfold call
  split
  · next relocated isRelocated =>
      obtain ⟨table, records, record, values, row, name, value, mapped, found,
        inside, isValues, isRow, column, known, isMapped, ⟨witness, produced,
          differs⟩, unknown⟩ := edited
      obtain ⟨current, changes, isCurrent, -, changed⟩ :=
        relocated_column unique captured isRelocated found inside isValues
          column known
      rw [isRow] at isCurrent
      cases isCurrent
      obtain ⟨mapped', isMapped', cases'⟩ := columnChange_ok changed
      rw [isMapped] at isMapped'
      cases isMapped'
      rcases cases' with ⟨-, all⟩ | ⟨⟨other, isProduced, equal⟩, -⟩
      · exact absurd (all witness produced) differs
      · exact absurd equal (unknown other isProduced)
  · rfl

/-! ## The whole run -/

/-- What a call that goes through makes of the original rows. -/
structure Replayed (host : Host) (schema : Schema) (snapshot : Snapshot)
    (original : Database) (roots : Roots) (next : Database) : Prop where
  paths : ∀ table records, snapshot table = some records →
    ∀ (index : Nat) (row row' : Row), (original table)[index]? = some row →
      (next table)[index]? = some row' → ∀ name ∈ schema.columns table,
        Relocated host roots name (row name) (row' name)
  others : ∀ table, ∀ name ∉ schema.columns table,
    (next table).map (· name) = (original table).map (· name)
  again : call host schema snapshot roots next = next

/-- Rows whose keys have stayed have the same keys, place by place. -/
theorem keys_of_others {keys : List String} {rows rows' : List Row}
    (others : ∀ name ∈ keys, rows'.map (· name) = rows.map (· name))
    (some' : keys ≠ []) :
    rows'.map (fun row => keys.map row) = rows.map fun row => keys.map row := by
  have length : rows'.length = rows.length := by
    obtain ⟨name, inside⟩ := List.exists_mem_of_ne_nil keys some'
    simpa using congrArg List.length (others name inside)
  apply List.ext_getElem
  · simpa using length
  · intro index inside inside'
    rw [List.getElem_map, List.getElem_map]
    apply List.map_congr_left
    intro name among
    have here := congrArg (fun list => list[index]?) (others name among)
    rw [List.length_map] at inside inside'
    simpa [inside, inside'] using here

theorem Holding.replayed (holding : Holding host schema snapshot original
      roots.sourceRoot earlier db) (unique : Unique schema original)
    (captured : capturePortableDatabase schema original tables =
      .ok snapshot)
    (listed : earlier ⊆ roots.attemptedRoots)
    (isNext : relocatePortableDatabase host schema snapshot roots db =
      .ok next) :
    Replayed host schema snapshot original roots next := by
  obtain ⟨held, stands⟩ := holding.relocated unique captured listed isNext
  refine ⟨?_, held.others, call_again stands⟩
  intro table records found index row row' there there' name column
  obtain ⟨isTable, filled, same⟩ := captured_table captured found
  have keys := keys_of_others (fun name inside =>
    held.others table name (schema.keys_apart table name inside)) filled
  have distinct := unique table
  rw [← keys] at distinct
  have equal : (schema.keys table).map row' = (schema.keys table).map row := by
    have here := congrArg (fun list => list[index]?) keys
    simpa [there, there'] using here
  have member : captureRow (capturedNames schema table) row ∈ records := by
    rw [same]
    exact List.mem_map_of_mem (List.mem_of_getElem? there)
  have values := captureRow_keyValues (capturedNames_keys schema table) row
  have known := captureRow_lookup
    (capturedNames_columns schema table name column) row
  obtain ⟨values', current, changes, isValues', -, -, last⟩ :=
    (relocated_records unique captured isNext found).1 _ member
  rw [values] at isValues'
  cases isValues'
  have isRow : applyChanges changes current = row' := by
    rw [← equal] at last
    exact Unique.find distinct (List.mem_of_getElem? there') last
  rw [isRow] at last
  exact (stands table records found _ member _ row' values last name column _
    known).relocated

/-- After any attempts, a call that goes through brings the original paths to
its own root and leaves all else; a call that meets a foreign path in a column
that it would change does nothing. -/
theorem relocation_replayed (host : Host) (schema : Schema)
    (original : Database) (unique : Unique schema original)
    (tables : List String) (snapshot : Snapshot)
    (captured : capturePortableDatabase schema original tables =
      .ok snapshot) (roots : Roots) (attempts : List Attempt)
    (listed : Listed [] attempts)
    (all : attempts.map (·.currentRoot) ⊆ roots.attemptedRoots) :
    (∀ next, relocatePortableDatabase host schema snapshot roots
        (attempts.foldl (attempt host schema snapshot roots.sourceRoot)
          original) = .ok next →
      Replayed host schema snapshot original roots next) ∧
      (∀ edited, Edited host schema snapshot roots edited →
        call host schema snapshot roots edited = edited) ∧
      ∀ (map : String → String) (places : List Place) (tree : JsonTree),
        (mapPayloadPaths map false tree).get places =
          (tree.get places).map (mapPart map (pathField false places)) := by
  refine ⟨?_, ?_, ?_⟩
  · intro next isNext
    have holding := (Holding.start host unique captured
      roots.sourceRoot).attempts unique captured listed
    exact holding.replayed unique captured all isNext
  · exact fun edited isEdited => call_edited unique captured isEdited
  · exact fun map places tree => mapPayloadPaths_get map places false tree

/-! ## One task -/

def oneDrive : Host where
  normal path :=
    [("E:\\Motrix", ["E:", "Motrix"]), ("F:\\Motrix", ["F:", "Motrix"]),
      ("E:\\Motrix\\a", ["E:", "Motrix", "a"]),
      ("F:\\Motrix\\a", ["F:", "Motrix", "a"]),
      ("D:\\b", ["D:", "b"]), ("D:\\c", ["D:", "c"])].lookup path
  join root rest := "\\".intercalate (root :: rest)
  parse _ := none
  stringify _ := ""

def taskSchema : Schema where
  info table :=
    if table = "tasks" then
      [("motrix_id", 1), ("save_dir", 0), ("final_path", 0)]
    else []
  apart := by
    intro table column listed isKey
    split at listed
    · next tasks =>
        have plain : ∀ column ∈ [("motrix_id", 1), ("save_dir", 0),
            ("final_path", 0)], 0 < column.2 →
              column.1 ∉ pathColumns "tasks" := by
          decide
        exact tasks ▸ plain column listed isKey
    · cases listed

def taskRow (final : String) : Row := fun name =>
  (([("motrix_id", SqliteValue.text "task"),
    ("save_dir", .text "E:\\Motrix\\a"), ("final_path", .text final)] :
      Record).lookup name).getD .null

def oneTask (final : String) : Database := fun table =>
  if table = "tasks" then [taskRow final] else []

theorem oneTask_unique (final : String) :
    Unique taskSchema (oneTask final) := by
  intro table
  unfold oneTask
  split
  · simp
  · simp

def taskSnapshot : Snapshot := fun table =>
  if TABLES.contains table && !(taskSchema.keys table).isEmpty &&
      !(taskSchema.columns table).isEmpty then
    some ((oneTask "D:\\b" table).map
      (captureRow (capturedNames taskSchema table)))
  else none

def toDriveF : Roots where
  sourceRoot := "E:\\Motrix"
  currentRoot := "F:\\Motrix"
  attemptedRoots := ["E:\\Motrix"]

theorem oneTask_replayed :
    ∃ next, relocatePortableDatabase oneDrive taskSchema taskSnapshot toDriveF
        (oneTask "D:\\b") = .ok next ∧
      Replayed oneDrive taskSchema taskSnapshot (oneTask "D:\\b") toDriveF
        next := by
  have captured : capturePortableDatabase taskSchema (oneTask "D:\\b")
      TABLES = .ok taskSnapshot := rfl
  exact ⟨_, rfl, (relocation_replayed oneDrive taskSchema (oneTask "D:\\b")
    (oneTask_unique _) TABLES taskSnapshot captured toDriveF
    [{ currentRoot := "E:\\Motrix"
       attemptedRoots := []
       commits := false }] ⟨by simp, trivial⟩ (by simp [toDriveF])).1 _ rfl⟩

/-- A path outside the root was edited, and the call goes on. -/
theorem editedOutside_goesOn :
    (∀ value, Produced oneDrive "E:\\Motrix" ["E:\\Motrix"] "final_path"
      (.text "D:\\b") value → value ≠ .text "D:\\c") ∧
      (call oneDrive taskSchema taskSnapshot toDriveF (oneTask "D:\\c")
        "tasks").map (· "save_dir") ≠
          (oneTask "D:\\c" "tasks").map (· "save_dir") := by
  constructor
  · rintro value (rfl | ⟨root, inside, wrote⟩)
    · decide
    · rw [List.mem_singleton.mp inside] at wrote
      have same : mapColumn oneDrive "final_path" (.text "D:\\b")
          "E:\\Motrix" "E:\\Motrix" = .ok (.text "D:\\b") := rfl
      rw [same] at wrote
      cases wrote
      decide
  · decide

end Motrix.Portable
