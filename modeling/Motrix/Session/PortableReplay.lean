import Motrix.Session.PortableRelocation

/-!
# Replays of a relocation

Each call starts from the values of the snapshot, so what earlier calls left
behind does not matter.  The values that may be found are the original one and
those of the calls before.
-/

namespace Motrix.Portable

open Lib JsonTree

variable {host : Host} {roots : Roots} {name : String}
  {original current : SqliteValue} {record changes : Record}
  {columns keys : List String} {rows : List Row}

/-! ## Columns -/

/-- The original value, or what a call with one of the roots wrote. -/
def Produced (host : Host) (sourceRoot : String) (earlier : List String)
    (name : String) (original value : SqliteValue) : Prop :=
  value = original ∨ ∃ root ∈ earlier,
    mapColumn host name original sourceRoot root = .ok value

/-- A value stands for what a relocation writes. -/
def Stands (host : Host) (roots : Roots) (name : String)
    (original value : SqliteValue) : Prop :=
  ∃ mapped, mapColumn host name original roots.sourceRoot
      roots.currentRoot = .ok mapped ∧
    (value = mapped ∨ equivalentColumn host name value mapped = .ok true)

/-- How a column came through a call. -/
theorem columnChange_ok {change : Option SqliteValue}
    (changed : columnChange host roots name original current = .ok change) :
    ∃ mapped, mapColumn host name original roots.sourceRoot
        roots.currentRoot = .ok mapped ∧
      ((change = none ∧ ∀ value,
          Produced host roots.sourceRoot roots.attemptedRoots name original
            value → equivalentColumn host name value mapped = .ok true) ∨
        ((∃ value, Produced host roots.sourceRoot roots.attemptedRoots name
            original value ∧
              equivalentColumn host name value current = .ok true) ∧
          ((change = none ∧
              equivalentColumn host name current mapped = .ok true) ∨
            (change = some mapped ∧
              equivalentColumn host name current mapped = .ok false)))) := by
  unfold columnChange at changed
  obtain ⟨mapped, isMapped, changed⟩ := bind_eq_ok.mp changed
  obtain ⟨earlier, isEarlier, changed⟩ := bind_eq_ok.mp changed
  simp only at changed
  obtain ⟨skip, isSkip, changed⟩ := bind_eq_ok.mp changed
  have listed : ∀ value, Produced host roots.sourceRoot
      roots.attemptedRoots name original value →
        value ∈ original :: earlier := by
    rintro value (rfl | ⟨root, inside, wrote⟩)
    · exact List.mem_cons_self
    · obtain ⟨result, among, found⟩ := mapM_of_mem isEarlier inside
      rw [wrote] at found
      cases found
      exact List.mem_cons_of_mem _ among
  refine ⟨mapped, isMapped, ?_⟩
  cases skip with
  | true =>
      rw [if_pos rfl, pure_eq_ok] at changed
      refine Or.inl ⟨changed.symm, fun value produced => ?_⟩
      exact allM_eq_true isSkip value (listed value produced)
  | false =>
      rw [if_neg Bool.false_ne_true] at changed
      obtain ⟨known, isKnown, changed⟩ := bind_eq_ok.mp changed
      cases known with
      | false => cases changed
      | true =>
          rw [if_pos rfl] at changed
          obtain ⟨done, isDone, changed⟩ := bind_eq_ok.mp changed
          obtain ⟨value, inside, equal⟩ := anyM_eq_true isKnown
          refine Or.inr ⟨⟨value, ?_, equal⟩, ?_⟩
          · rcases List.mem_cons.mp inside with rfl | among
            · exact Or.inl rfl
            · exact Or.inr (mem_of_mapM isEarlier among)
          · cases done with
            | true => exact Or.inl ⟨(pure_eq_ok.mp changed).symm, isDone⟩
            | false => exact Or.inr ⟨(pure_eq_ok.mp changed).symm, isDone⟩

theorem equivalentColumn_self {answer : Bool} {value : SqliteValue}
    (asked : equivalentColumn host name value value = .ok answer) :
    answer = true := by
  unfold equivalentColumn at asked
  split at asked
  · next left right =>
      split at asked
      · obtain ⟨tree, parsed, asked⟩ := bind_eq_ok.mp asked
        obtain ⟨other, again, asked⟩ := bind_eq_ok.mp asked
        rw [parsed] at again
        cases again
        rw [same_self] at asked
        exact (pure_eq_ok.mp asked).symm
      · have yes := pure_eq_ok.mp asked
        simpa using yes.symm
  · have yes := pure_eq_ok.mp asked
    simpa using yes.symm

/-- What a call leaves in a column that earlier calls may have written. -/
theorem columnChange_stands {earlier : List String}
    {change : Option SqliteValue}
    (changed : columnChange host roots name original current = .ok change)
    (produced : Produced host roots.sourceRoot earlier name original current)
    (listed : earlier ⊆ roots.attemptedRoots) :
    Stands host roots name original (change.getD current) ∧
      Produced host roots.sourceRoot (earlier ++ [roots.currentRoot]) name
        original (change.getD current) := by
  obtain ⟨mapped, isMapped, cases'⟩ := columnChange_ok changed
  have before : Produced host roots.sourceRoot
      (earlier ++ [roots.currentRoot]) name original current := by
    apply produced.imp_right
    rintro ⟨root, inside, wrote⟩
    exact ⟨root, List.mem_append_left _ inside, wrote⟩
  have known : Produced host roots.sourceRoot roots.attemptedRoots name
      original current := by
    apply produced.imp_right
    rintro ⟨root, inside, wrote⟩
    exact ⟨root, listed inside, wrote⟩
  rcases cases' with ⟨rfl, all⟩ | ⟨-, ⟨rfl, equal⟩ | ⟨rfl, -⟩⟩
  · exact ⟨⟨mapped, isMapped, Or.inr (all current known)⟩, before⟩
  · exact ⟨⟨mapped, isMapped, Or.inr equal⟩, before⟩
  · refine ⟨⟨mapped, isMapped, Or.inl rfl⟩, Or.inr ⟨roots.currentRoot, ?_, ?_⟩⟩
    · simp
    · exact isMapped

/-- A column that stands for the relocation is not written again. -/
theorem columnChange_again {change : Option SqliteValue}
    (changed : columnChange host roots name original current = .ok change)
    (stands : Stands host roots name original current) : change = none := by
  obtain ⟨mapped, isMapped, cases'⟩ := columnChange_ok changed
  obtain ⟨other, same, equal⟩ := stands
  rw [isMapped] at same
  cases same
  rcases cases' with ⟨none, -⟩ | ⟨-, ⟨none, -⟩ | ⟨-, differs⟩⟩
  · exact none
  · exact none
  · rcases equal with rfl | equal
    · cases equivalentColumn_self differs
    · cases equal.symm.trans differs

/-! ## Rows -/

/-- Every column is asked, and only columns are written. -/
theorem rowChanges_lookup {row : Row}
    (changed : rowChanges host roots record row columns = .ok changes) :
    (∀ name ∈ columns, ∃ original,
      record.lookup name = some original ∧
        columnChange host roots name original (row name) =
          .ok (changes.lookup name)) ∧
      ∀ name ∉ columns, changes.lookup name = none := by
  induction columns generalizing changes with
  | nil =>
      cases pure_eq_ok.mp changed
      simp
  | cons first rest induction =>
      rw [rowChanges] at changed
      cases found : record.lookup first with
      | none =>
          rw [found] at changed
          cases changed
      | some original =>
          rw [found] at changed
          obtain ⟨change, isChange, changed⟩ := bind_eq_ok.mp changed
          obtain ⟨others, isOthers, changed⟩ := bind_eq_ok.mp changed
          cases pure_eq_ok.mp changed
          obtain ⟨asked, outside⟩ := induction isOthers
          have other : ∀ name ≠ first,
              (change.toList.map (first, ·) ++ others).lookup name =
                others.lookup name := by
            intro name apart
            have unlike : (name == first) = false := by simpa using apart
            cases change with
            | none => rfl
            | some value => simp [List.lookup_cons, unlike]
          have here : (change.toList.map (first, ·) ++ others).lookup first =
              change := by
            cases change with
            | some value => simp
            | none =>
                by_cases again : first ∈ rest
                · obtain ⟨original', found', changed'⟩ := asked first again
                  rw [found] at found'
                  cases found'
                  rw [isChange] at changed'
                  exact (Except.ok.inj changed').symm
                · exact outside first again
          constructor
          · intro name inside
            by_cases same : name = first
            · subst same
              exact ⟨original, found, by rw [here, isChange]⟩
            · rw [other name same]
              exact asked name ((List.mem_cons.mp inside).resolve_left same)
          · intro name none
            rw [List.mem_cons, not_or] at none
            rw [other name none.1]
            exact outside name none.2

@[simp] theorem applyChanges_nil (row : Row) : applyChanges [] row = row :=
  rfl

/-- The key of a row is not among what a relocation writes. -/
theorem isKeyed_applyChanges {values : List SqliteValue} {row : Row}
    (apart : ∀ name ∈ keys, changes.lookup name = none) :
    isKeyed keys values (applyChanges changes row) =
      isKeyed keys values row := by
  unfold isKeyed
  rw [Bool.eq_iff_iff, List.all_eq_true, List.all_eq_true]
  apply forall₂_congr
  intro pair inside
  unfold applyChanges
  rw [apart pair.1 (List.of_mem_zip inside).1]
  rfl

theorem sqlEquals_eq {left right : SqliteValue}
    (equal : sqlEquals left right = true) : left = right := by
  unfold sqlEquals at equal
  rw [Bool.and_eq_true, beq_iff_eq] at equal
  exact equal.1

/-- A row has one key. -/
theorem isKeyed_values {values : List SqliteValue} {row : Row}
    (length : values.length = keys.length)
    (keyed : isKeyed keys values row = true) : values = keys.map row := by
  unfold isKeyed at keyed
  induction keys generalizing values with
  | nil => simpa using length
  | cons name rest induction =>
      cases values with
      | nil => simp at length
      | cons value others =>
          rw [List.zip_cons_cons, List.all_cons, Bool.and_eq_true] at keyed
          have first := sqlEquals_eq keyed.1
          have later := induction (by simpa using length) keyed.2
          simp [first, later]

theorem keyValues_length {values : List SqliteValue}
    (found : keyValues keys record = .ok values) :
    values.length = keys.length := by
  have same : values.map (fun _ => ()) = keys.map fun _ => () :=
    mapM_field (fun _ _ _ => rfl) found
  simpa using congrArg List.length same

/-! ## Tables -/

/-- What the relocation of one record does to its table. -/
theorem relocateRow_ok {next : List Row}
    (relocated : relocateRow host keys columns roots rows record =
      .ok next) :
    ∃ values current changes, keyValues keys record = .ok values ∧
      rows.find? (isKeyed keys values) = some current ∧
        rowChanges host roots record current columns = .ok changes ∧
          next = updateRows keys values changes rows := by
  unfold relocateRow at relocated
  obtain ⟨values, isValues, relocated⟩ := bind_eq_ok.mp relocated
  cases found : rows.find? (isKeyed keys values) with
  | none =>
      rw [found] at relocated
      cases relocated
  | some current =>
      rw [found] at relocated
      obtain ⟨changes, isChanges, relocated⟩ := bind_eq_ok.mp relocated
      refine ⟨values, current, changes, isValues, found, isChanges, ?_⟩
      rw [← pure_eq_ok.mp relocated]
      split
      · next empty =>
          rw [List.isEmpty_iff.mp empty]
          simp [updateRows]
      · rfl

/-- The row of a key after an update. -/
theorem find_updateRows {values others : List SqliteValue}
    (length : values.length = keys.length)
    (length' : others.length = keys.length)
    (apart : ∀ name ∈ keys, changes.lookup name = none) :
    (updateRows keys values changes rows).find? (isKeyed keys others) =
      if others = values then
        (rows.find? (isKeyed keys others)).map (applyChanges changes)
      else rows.find? (isKeyed keys others) := by
  unfold updateRows
  rw [List.find?_map]
  have asks : (isKeyed keys others ∘ fun row =>
      if isKeyed keys values row then applyChanges changes row else row) =
        isKeyed keys others := by
    funext row
    show isKeyed keys others (if isKeyed keys values row then _ else _) = _
    split
    · exact isKeyed_applyChanges apart
    · rfl
  rw [asks]
  cases found : rows.find? (isKeyed keys others) with
  | none => simp
  | some row =>
      have keyed := List.find?_some found
      split
      · next same =>
          rw [same] at keyed
          simp [keyed]
      · next unlike =>
          have other : isKeyed keys values row = false := by
            rw [Bool.eq_false_iff]
            intro both
            apply unlike
            rw [isKeyed_values length' keyed, isKeyed_values length both]
          simp [other]

/-- The relocation of all records of a table, one after another. -/
theorem relocateRows_ok {records : List Record} {next : List Row}
    (apart : ∀ name ∈ keys, name ∉ columns)
    (distinct : records.Pairwise fun first second =>
      keyValues keys first ≠ keyValues keys second)
    (relocated : records.foldlM (relocateRow host keys columns roots) rows =
      .ok next) :
    (∀ record ∈ records, ∃ values current changes,
        keyValues keys record = .ok values ∧
          rows.find? (isKeyed keys values) = some current ∧
            rowChanges host roots record current columns = .ok changes ∧
              next.find? (isKeyed keys values) =
                some (applyChanges changes current)) ∧
      (∀ values, values.length = keys.length →
        (∀ record ∈ records, keyValues keys record ≠ .ok values) →
          next.find? (isKeyed keys values) =
            rows.find? (isKeyed keys values)) ∧
      ∀ name ∉ columns, next.map (· name) = rows.map (· name) := by
  induction records generalizing rows with
  | nil =>
      cases pure_eq_ok.mp relocated
      simp
  | cons record rest induction =>
      rw [List.foldlM_cons] at relocated
      obtain ⟨middle, first, relocated⟩ := bind_eq_ok.mp relocated
      obtain ⟨values, current, changes, isValues, found, isChanges, rfl⟩ :=
        relocateRow_ok first
      obtain ⟨unlike, distinct'⟩ := List.pairwise_cons.mp distinct
      obtain ⟨later, outside, others⟩ := induction distinct' relocated
      have keep := (rowChanges_lookup isChanges).2
      have kept : ∀ name ∈ keys, changes.lookup name = none :=
        fun name inside => keep name (apart name inside)
      have length := keyValues_length isValues
      refine ⟨?_, ?_, ?_⟩
      · intro other inside
        rcases List.mem_cons.mp inside with rfl | among
        · refine ⟨values, current, changes, isValues, found, isChanges, ?_⟩
          rw [outside values length, find_updateRows length length kept,
            if_pos rfl, found]
          · rfl
          · intro other among
            rw [← isValues]
            exact (unlike other among).symm
        · obtain ⟨values', current', changes', isValues', found', isChanges',
            last⟩ := later other among
          have differs : values' ≠ values := by
            intro same
            apply unlike other among
            rw [isValues, isValues', same]
          rw [find_updateRows length (keyValues_length isValues') kept,
            if_neg differs] at found'
          exact ⟨values', current', changes', isValues', found', isChanges',
            last⟩
      · intro other length' none
        obtain ⟨here, none'⟩ := List.forall_mem_cons.mp none
        rw [outside other length' none', find_updateRows length length' kept,
          if_neg]
        rintro rfl
        exact here isValues
      · intro name none
        rw [others name none]
        unfold updateRows
        rw [List.map_map]
        apply List.map_congr_left
        intro row _
        show (if isKeyed keys values row then _ else row) name = row name
        split
        · unfold applyChanges
          rw [keep name none]
          rfl
        · rfl

/-- Records that stand for the relocation are not written again. -/
theorem relocateRows_again {records : List Record} {next : List Row}
    (stands : ∀ record ∈ records, ∀ values current,
      keyValues keys record = .ok values →
        rows.find? (isKeyed keys values) = some current →
          ∀ name ∈ columns, ∀ original, record.lookup name = some original →
            Stands host roots name original (current name))
    (relocated : records.foldlM (relocateRow host keys columns roots) rows =
      .ok next) : next = rows := by
  induction records with
  | nil => exact (pure_eq_ok.mp relocated).symm
  | cons record rest induction =>
      obtain ⟨here, later⟩ := List.forall_mem_cons.mp stands
      rw [List.foldlM_cons] at relocated
      obtain ⟨middle, first, relocated⟩ := bind_eq_ok.mp relocated
      obtain ⟨values, current, changes, isValues, found, isChanges, rfl⟩ :=
        relocateRow_ok first
      obtain ⟨asked, outside⟩ := rowChanges_lookup isChanges
      have nothing : ∀ name, changes.lookup name = none := by
        intro name
        by_cases inside : name ∈ columns
        · obtain ⟨original, known, changed⟩ := asked name inside
          exact columnChange_again changed
            (here values current isValues found name inside original known)
        · exact outside name inside
      have same : updateRows keys values changes rows = rows := by
        unfold updateRows
        have keeps : ∀ row, applyChanges changes row = row := by
          intro row
          funext name
          simp [applyChanges, nothing]
        simp [keeps]
      rw [same] at relocated
      exact induction later relocated

/-! ## The database -/

variable {schema : Schema} {snapshot : Snapshot} {db next : Database}

theorem relocateTable_ok {table : String}
    (relocated : relocateTable host schema snapshot roots db table =
      .ok next) :
    ((snapshot table).getD []).foldlM (relocateRow host (schema.keys table)
        (schema.columns table) roots) (db table) = .ok (next table) ∧
      ∀ other ≠ table, next other = db other := by
  unfold relocateTable at relocated
  cases records : (snapshot table).getD [] with
  | nil =>
      rw [records] at relocated
      cases pure_eq_ok.mp relocated
      exact ⟨rfl, fun _ _ => rfl⟩
  | cons record rest =>
      rw [records] at relocated
      obtain ⟨-, relocated⟩ := guard_eq_ok.mp relocated
      obtain ⟨rows, isRows, relocated⟩ := bind_eq_ok.mp relocated
      cases pure_eq_ok.mp relocated
      constructor
      · rw [isRows, Function.update_self]
      · intro other apart
        exact Function.update_of_ne apart _ _

theorem relocateTables_ok {tables : List String} (distinct : tables.Nodup)
    (relocated : tables.foldlM (relocateTable host schema snapshot roots) db =
      .ok next) (table : String) :
    if table ∈ tables then
      ((snapshot table).getD []).foldlM (relocateRow host (schema.keys table)
        (schema.columns table) roots) (db table) = .ok (next table)
    else next table = db table := by
  induction tables generalizing db with
  | nil =>
      cases pure_eq_ok.mp relocated
      simp
  | cons first rest induction =>
      rw [List.foldlM_cons] at relocated
      obtain ⟨middle, step, relocated⟩ := bind_eq_ok.mp relocated
      obtain ⟨apart, distinct'⟩ := List.nodup_cons.mp distinct
      obtain ⟨here, others⟩ := relocateTable_ok step
      have later := induction distinct' relocated
      by_cases same : table = first
      · subst same
        rw [if_neg apart] at later
        rw [if_pos List.mem_cons_self, later]
        exact here
      · rw [others table same] at later
        simpa [same] using later

end Motrix.Portable
