import Mathlib.Data.List.Pairwise
import Mathlib.Data.List.Perm.Basic
import Motrix.Task.BtStorageLayout

/-!
# Where the files of a torrent go

Metadata is accepted by conditions that no order of the files changes.  The
paths mapped from accepted metadata stay below every output directory, and
none is another or an ancestor of another, padding apart.
-/

namespace Motrix.BtLayout

open Lib Lib.Separated ProcessPlatform

variable {platform : ProcessPlatform} {folding : NameFolding}

/-! ## Path components -/

theorem isValidComponent_plain {value : Text}
    (valid : isValidComponent platform value = true) : Plain value := by
  unfold isValidComponent at valid
  simp only [Bool.and_eq_true, bne_iff_ne, Bool.not_eq_true',
    List.contains_eq_mem, decide_eq_false_iff_not] at valid
  obtain ⟨⟨⟨⟨⟨⟨nonempty, current⟩, parent⟩, slash⟩, backslash⟩, _⟩, _⟩ := valid
  constructor
  · exact nonempty
  · exact current
  · exact parent
  · exact slash
  · exact backslash

theorem validatePathComponent_eq_ok {value : Option Text}
    {description : String} {component : Text} :
    validatePathComponent platform value description = .ok component ↔
      isValidComponent platform component = true ∧ value = some component := by
  cases value with
  | none =>
      unfold validatePathComponent
      simp [throw_eq_ok]
  | some value =>
      unfold validatePathComponent
      dsimp only
      by_cases valid : isValidComponent platform value = true
      · rw [if_pos valid, Except.ok.injEq, Option.some.injEq]
        constructor
        · rintro rfl
          exact ⟨valid, rfl⟩
        · exact And.right
      · rw [if_neg valid, throw_eq_ok, Option.some.injEq]
        constructor
        · exact False.elim
        · rintro ⟨accepted, rfl⟩
          exact valid accepted

/-! ## One file -/

/-- The components of a file that is accepted below the declared root. -/
structure AcceptableFile (platform : ProcessPlatform) (torrentRootName : Text)
    (multiFile : Bool) (file : EngineTorrentFile) : Prop where
  valid : ∀ component ∈ file.pathComponents,
    isValidComponent platform component = true
  inside : file.pathComponents.head? = some torrentRootName
  depth : if multiFile then 2 ≤ file.pathComponents.length
    else file.pathComponents.length = 1

def pathInsideRoot (platform : ProcessPlatform) (multiFile : Bool)
    (file : EngineTorrentFile) : Option Text :=
  if multiFile then some (platform.join (file.pathComponents.drop 1)) else none

theorem components_eq_ok {components results : List Text} :
    components.mapM (fun component => validatePathComponent platform
      (some component) "torrent file path") = .ok results ↔
      (∀ component ∈ components, isValidComponent platform component = true) ∧
        results = components := by
  have step_iff : ∀ component result, validatePathComponent platform
      (some component) "torrent file path" = .ok result ↔
        isValidComponent platform component = true ∧
          result = id component := by
    intro component result
    rw [validatePathComponent_eq_ok, Option.some.injEq]
    constructor
    · rintro ⟨valid, rfl⟩
      exact ⟨valid, rfl⟩
    · rintro ⟨valid, rfl⟩
      exact ⟨valid, rfl⟩
  rw [mapM_eq_ok_iff step_iff, List.map_id]

theorem parseFile_eq_ok {torrentRootName : Text} {multiFile : Bool}
    (entry : EngineTorrentFile × Nat) (parsed : ParsedBtFile) :
    parseFile platform torrentRootName multiFile entry = .ok parsed ↔
      AcceptableFile platform torrentRootName multiFile entry.1 ∧
        parsed = ⟨entry.2, pathInsideRoot platform multiFile entry.1⟩ := by
  unfold parseFile
  rw [bind_eq_ok]
  constructor
  · rintro ⟨components, validated, rest⟩
    obtain ⟨valid, rfl⟩ := components_eq_ok.mp validated
    obtain ⟨inside, rest⟩ := guard_eq_ok.mp rest
    cases multiFile with
    | false =>
        obtain ⟨single, rest⟩ := guard_eq_ok.mp rest
        rw [← pure_eq_ok.mp rest]
        exact ⟨⟨valid, not_not.mp inside, not_not.mp single⟩, rfl⟩
    | true =>
        obtain ⟨deep, rest⟩ := guard_eq_ok.mp rest
        rw [← pure_eq_ok.mp rest]
        exact ⟨⟨valid, not_not.mp inside, Nat.le_of_not_lt deep⟩, rfl⟩
  · rintro ⟨acceptable, rfl⟩
    refine ⟨_, components_eq_ok.mpr ⟨acceptable.valid, rfl⟩, ?_⟩
    apply guard_eq_ok.mpr
    constructor
    · exact not_not.mpr acceptable.inside
    · cases multiFile with
      | false =>
          apply guard_eq_ok.mpr
          exact ⟨not_not.mpr acceptable.depth, rfl⟩
      | true =>
          apply guard_eq_ok.mpr
          exact ⟨Nat.not_lt.mpr acceptable.depth, rfl⟩

/-! ## Files under their name identities -/

def Compatible (first second : MappedFile) : Prop :=
  first.key = second.key → sharesPath first.source second.source = true

theorem sharesPath_iff {first second : EngineTorrentFile} :
    sharesPath first second = true ↔
      first.padding = true ∧ second.padding = true ∧
        first.length = second.length := by
  unfold sharesPath
  rw [Bool.and_eq_true, Bool.and_eq_true, beq_iff_eq, and_assoc]

theorem Compatible.symm {first second : MappedFile}
    (compatible : Compatible first second) : Compatible second first := by
  intro same
  obtain ⟨left, right, length⟩ := sharesPath_iff.mp (compatible same.symm)
  exact sharesPath_iff.mpr ⟨right, left, length.symm⟩

instance : Std.Symm Compatible :=
  ⟨fun _ _ => Compatible.symm⟩

theorem mapFile_eq_ok {mapped result : List MappedFile} {entry : MappedFile}
    (earlier : mapped.Pairwise Compatible) :
    mapFile mapped entry = .ok result ↔
      (∀ other ∈ mapped, Compatible entry other) ∧
        result = entry :: mapped := by
  unfold mapFile
  cases found : mapped.find? (·.key == entry.key) with
  | none =>
      have fresh := List.find?_eq_none.mp found
      have apart : ∀ other ∈ mapped, Compatible entry other := by
        intro other inside same
        exact absurd (beq_iff_eq.mpr same.symm) (fresh other inside)
      simp only [Except.ok.injEq]
      exact ⟨fun same => ⟨apart, same.symm⟩, fun both => both.2.symm⟩
  | some previous =>
      have inside := List.mem_of_find?_eq_some found
      have key : previous.key = entry.key := by
        simpa using List.find?_some found
      by_cases shares : sharesPath previous.source entry.source = true
      · have all : ∀ other ∈ mapped, Compatible entry other := by
          intro other among same
          obtain ⟨_, padding, length⟩ := sharesPath_iff.mp shares
          by_cases latest : other = previous
          · subst latest
            exact Compatible.symm (fun _ => shares) same
          · have pair : Compatible previous other :=
              earlier.forall inside among (Ne.symm latest)
            obtain ⟨_, also, equal⟩ :=
              sharesPath_iff.mp (pair (key.trans same))
            exact sharesPath_iff.mpr ⟨padding, also, length.symm.trans equal⟩
        simp only [shares, if_true, Except.ok.injEq]
        exact ⟨fun same => ⟨all, same.symm⟩, fun both => both.2.symm⟩
      · have clash : ¬∀ other ∈ mapped, Compatible entry other := by
          intro all
          exact shares ((all previous inside).symm key)
        simp only [shares, if_false, throw_eq_ok, clash, false_and,
          Bool.false_eq_true]

theorem mapFiles_eq_ok {mapped entries result : List MappedFile}
    (earlier : mapped.Pairwise Compatible) :
    entries.foldlM mapFile mapped = .ok result ↔
      (entries.reverse ++ mapped).Pairwise Compatible ∧
        result = entries.reverse ++ mapped := by
  induction entries generalizing mapped with
  | nil =>
      rw [List.foldlM_nil, pure_eq_ok]
      simp [earlier, eq_comm]
  | cons entry rest induction =>
      rw [List.foldlM_cons, bind_eq_ok, List.reverse_cons, List.append_assoc]
      constructor
      · rintro ⟨next, stepped, folded⟩
        obtain ⟨compatible, rfl⟩ := (mapFile_eq_ok earlier).mp stepped
        exact (induction (List.pairwise_cons.mpr ⟨compatible, earlier⟩)).mp
          folded
      · rintro ⟨pairwise, rfl⟩
        have later := (List.pairwise_append.mp pairwise).2.1
        obtain ⟨compatible, _⟩ := List.pairwise_cons.mp later
        exact ⟨_, (mapFile_eq_ok earlier).mpr ⟨compatible, rfl⟩,
          (induction later).mpr ⟨pairwise, rfl⟩⟩

theorem ancestor_iff_take {sep : Char} {parent child : Text} :
    Ancestor sep parent child ↔
      ∃ count, (1 ≤ count ∧ count < (child.splitOn sep).length) ∧
        parent = [sep].intercalate ((child.splitOn sep).take count) := by
  constructor
  · intro ancestor
    obtain ⟨rest, some, parts⟩ := ancestor.splitOn
    have first := List.length_pos_iff.mpr (List.splitOn_ne_nil sep parent)
    have last := List.length_pos_iff.mpr some
    refine ⟨(parent.splitOn sep).length, ⟨first, ?_⟩, ?_⟩
    · rw [parts, List.length_append]
      omega
    · rw [parts, List.take_left, List.intercalate_splitOn]
  · rintro ⟨count, ⟨positive, within⟩, rfl⟩
    refine ⟨[sep].intercalate ((child.splitOn sep).drop count), ?_⟩
    rw [← intercalate_append, List.take_append_drop, List.intercalate_splitOn]
    · apply List.ne_nil_of_length_pos
      rw [List.length_take]
      omega
    · apply List.ne_nil_of_length_pos
      rw [List.length_drop]
      omega

theorem hasAncestor_iff {mapped : List MappedFile} {key : Text} :
    hasAncestor platform mapped key = true ↔
      ∃ entry ∈ mapped, Ancestor platform.sep entry.key key := by
  unfold hasAncestor
  simp only [List.any_eq_true, List.mem_range'_1, beq_iff_eq]
  constructor
  · rintro ⟨count, ⟨positive, within⟩, entry, inside, same⟩
    refine ⟨entry, inside, ancestor_iff_take.mpr ⟨count, ⟨positive, ?_⟩, same⟩⟩
    omega
  · rintro ⟨entry, inside, ancestor⟩
    obtain ⟨count, ⟨positive, within⟩, same⟩ := ancestor_iff_take.mp ancestor
    refine ⟨count, ⟨positive, ?_⟩, entry, inside, same⟩
    omega

/-! ## Accepted metadata -/

/-- The entry of a file without its place in the list. -/
def entryOf (platform : ProcessPlatform) (folding : NameFolding)
    (torrentRootName : Text) (multiFile : Bool) (file : EngineTorrentFile) :
    MappedFile where
  key := platform.outputNameIdentity folding
    ((pathInsideRoot platform multiFile file).getD torrentRootName)
  source := file

/-- No condition names a place in the list of files. -/
structure Acceptable (platform : ProcessPlatform) (folding : NameFolding)
    (infoHash : Text) (torrentRootName : Text) (multiFile : Bool)
    (files : List EngineTorrentFile) : Prop where
  hash : isInfoHash infoHash = true
  root : isValidComponent platform torrentRootName = true
  nonempty : files ≠ []
  accepted : ∀ file ∈ files,
    AcceptableFile platform torrentRootName multiFile file
  compatible : (files.map (entryOf platform folding torrentRootName
    multiFile)).Pairwise Compatible
  apart : ∀ file ∈ files, ∀ other ∈ files, ¬Ancestor platform.sep
    (entryOf platform folding torrentRootName multiFile other).key
    (entryOf platform folding torrentRootName multiFile file).key

def EngineTorrent.isMultiFile (parsed : EngineTorrent) : Bool :=
  parsed.multiFile == some true

def parsedFiles (platform : ProcessPlatform) (multiFile : Bool)
    (files : List EngineTorrentFile) : List ParsedBtFile :=
  files.zipIdx.map fun entry =>
    ⟨entry.2, pathInsideRoot platform multiFile entry.1⟩

def layoutOf (platform : ProcessPlatform) (parsed : EngineTorrent)
    (torrentRootName : Text) : ParsedBtFileLayout where
  infoHash := parsed.infoHash.map asciiLower
  torrentRootName := torrentRootName
  multiFile := parsed.isMultiFile
  isPrivate := parsed.isPrivate == some true
  files := parsedFiles platform parsed.isMultiFile (parsed.files.getD [])

theorem parsedFiles_entries (torrentRootName : Text) (multiFile : Bool)
    (files : List EngineTorrentFile) :
    ((parsedFiles platform multiFile files).zip files).map
      (mappedFile platform folding torrentRootName) =
        files.map (entryOf platform folding torrentRootName multiFile) := by
  unfold parsedFiles
  apply List.ext_getElem?
  intro index
  simp only [List.getElem?_map, List.zip, List.getElem?_zipWith,
    List.getElem?_zipIdx]
  cases files[index]? with
  | none => rfl
  | some file => rfl

theorem accepts_mapped {torrentRootName : Text} {multiFile : Bool}
    {files : List EngineTorrentFile}
    {mapped : List MappedFile}
    (same : mapped = (files.map (entryOf platform folding torrentRootName
      multiFile)).reverse) :
    (mapped.any fun entry => hasAncestor platform mapped entry.key) = false ↔
      ∀ file ∈ files, ∀ other ∈ files, ¬Ancestor platform.sep
        (entryOf platform folding torrentRootName multiFile other).key
        (entryOf platform folding torrentRootName multiFile file).key := by
  have inside : ∀ entry, entry ∈ mapped ↔ ∃ file ∈ files,
      entryOf platform folding torrentRootName multiFile file = entry := by
    intro entry
    rw [same, List.mem_reverse, List.mem_map]
  rw [← Bool.not_eq_true, List.any_eq_true, not_exists]
  constructor
  · intro apart file among other there ancestor
    apply apart (entryOf platform folding torrentRootName multiFile file)
    refine ⟨(inside _).mpr ⟨file, among, rfl⟩, ?_⟩
    exact hasAncestor_iff.mpr ⟨_, (inside _).mpr ⟨other, there, rfl⟩, ancestor⟩
  · rintro apart entry ⟨there, ancestor⟩
    obtain ⟨file, among, rfl⟩ := (inside entry).mp there
    obtain ⟨other, mapped', below⟩ := hasAncestor_iff.mp ancestor
    obtain ⟨source, also, rfl⟩ := (inside other).mp mapped'
    exact apart file among source also below

theorem parseBtFileLayout_eq_ok {parsed : EngineTorrent}
    {layout : ParsedBtFileLayout} :
    parseBtFileLayout platform folding parsed = .ok layout ↔
      ∃ torrentRootName, parsed.name = some torrentRootName ∧
        Acceptable platform folding parsed.infoHash torrentRootName
          parsed.isMultiFile (parsed.files.getD []) ∧
        layout = layoutOf platform parsed torrentRootName := by
  have files_iff : ∀ torrentRootName results,
      (parsed.files.getD []).zipIdx.mapM (parseFile platform torrentRootName
        parsed.isMultiFile) = .ok results ↔
      (∀ file ∈ parsed.files.getD [], AcceptableFile platform torrentRootName
          parsed.isMultiFile file) ∧
        results = parsedFiles platform parsed.isMultiFile
          (parsed.files.getD []) := by
    intro torrentRootName results
    rw [mapM_eq_ok_iff fun entry result => parseFile_eq_ok entry result]
    constructor
    · rintro ⟨all, rfl⟩
      refine ⟨fun file inside => ?_, rfl⟩
      obtain ⟨index, there⟩ := List.mem_iff_getElem?.mp inside
      exact all (file, index) (List.mem_zipIdx_iff_getElem?.mpr there)
    · rintro ⟨all, rfl⟩
      refine ⟨fun entry inside => ?_, rfl⟩
      exact all entry.1 (List.fst_mem_of_mem_zipIdx inside)
  unfold parseBtFileLayout
  rw [guard_eq_ok, bind_eq_ok]
  constructor
  · rintro ⟨hash, torrentRootName, named, rest⟩
    obtain ⟨root, name⟩ := validatePathComponent_eq_ok.mp named
    obtain ⟨nonempty, rest⟩ := guard_eq_ok.mp rest
    obtain ⟨results, parsedAll, rest⟩ := bind_eq_ok.mp rest
    obtain ⟨files, rfl⟩ := (files_iff _ _).mp parsedAll
    obtain ⟨mapped, folded, rest⟩ := bind_eq_ok.mp rest
    rw [parsedFiles_entries] at folded
    obtain ⟨compatible, same⟩ := (mapFiles_eq_ok List.Pairwise.nil).mp folded
    rw [List.append_nil] at compatible same
    obtain ⟨unnested, rest⟩ := guard_eq_ok.mp rest
    refine ⟨torrentRootName, name, ?_, (pure_eq_ok.mp rest).symm⟩
    constructor
    · simpa using hash
    · exact root
    · exact nonempty
    · exact files
    · have mirrored := List.pairwise_reverse.mp compatible
      exact mirrored.imp Compatible.symm
    · exact (accepts_mapped same).mp (Bool.eq_false_iff.mpr unnested)
  · rintro ⟨torrentRootName, name, acceptable, rfl⟩
    refine ⟨by simpa using acceptable.hash, torrentRootName, ?_, ?_⟩
    · exact validatePathComponent_eq_ok.mpr ⟨acceptable.root, name⟩
    · apply guard_eq_ok.mpr
      refine ⟨acceptable.nonempty, ?_⟩
      apply bind_eq_ok.mpr
      refine ⟨_, (files_iff _ _).mpr ⟨acceptable.accepted, rfl⟩, ?_⟩
      apply bind_eq_ok.mpr
      rw [parsedFiles_entries]
      refine ⟨_, (mapFiles_eq_ok List.Pairwise.nil).mpr ⟨?_, rfl⟩, ?_⟩
      · rw [List.append_nil, List.pairwise_reverse]
        exact acceptable.compatible.imp Compatible.symm
      · apply guard_eq_ok.mpr
        refine ⟨Bool.eq_false_iff.mp ?_, rfl⟩
        rw [List.append_nil]
        exact (accepts_mapped rfl).mpr acceptable.apart

/-- The order of the files is no condition. -/
theorem Acceptable.perm {infoHash torrentRootName : Text} {multiFile : Bool}
    {files others : List EngineTorrentFile}
    (acceptable : Acceptable platform folding infoHash torrentRootName
      multiFile files) (same : files.Perm others) :
    Acceptable platform folding infoHash torrentRootName multiFile others where
  hash := acceptable.hash
  root := acceptable.root
  nonempty empty := acceptable.nonempty (by
    rw [empty] at same
    exact List.Perm.eq_nil same)
  accepted file inside := acceptable.accepted file (same.mem_iff.mpr inside)
  compatible := by
    refine (List.Perm.pairwise_iff ?_ (same.map _)).mp acceptable.compatible
    exact fun compatible => compatible.symm
  apart file inside other among :=
    acceptable.apart file (same.mem_iff.mpr inside) other
      (same.mem_iff.mpr among)

/-! ## Plans -/

/-- What holds of the files of a plan, wherever they are put. -/
structure SafePlan (platform : ProcessPlatform) (folding : NameFolding)
    (files : List EngineTorrentFile) (paths : List BtOutputFilePath) :
    Prop where
  indices : paths.map (·.fileIndex) = List.range files.length
  below : ∀ (root : AbsolutePath), ∀ path ∈ paths,
    ∃ inside, inside ≠ [] ∧
      root.segmentsOf platform path.relativePath =
        root.segments platform ++ inside
  shared : ∀ (root : AbsolutePath), ∀ path ∈ paths, ∀ other ∈ paths,
    path.fileIndex ≠ other.fileIndex →
    platform.outputNameIdentity folding
        (root.locate platform path.relativePath) =
      platform.outputNameIdentity folding
        (root.locate platform other.relativePath) →
    ∃ file second, files[path.fileIndex]? = some file ∧
      files[other.fileIndex]? = some second ∧
      file.padding = true ∧ second.padding = true ∧
      file.length = second.length
  apart : ∀ (root : AbsolutePath), ∀ path ∈ paths, ∀ other ∈ paths,
    ¬Ancestor platform.sep
      (platform.outputNameIdentity folding
        (root.locate platform path.relativePath))
      (platform.outputNameIdentity folding
        (root.locate platform other.relativePath))

/-- How a plan writes the path of each file. -/
structure Renders (platform : ProcessPlatform) (folding : NameFolding)
    (torrentRootName : Text) (files : List ParsedBtFile)
    (render : ParsedBtFile → Text) : Prop where
  plain : ∀ file ∈ files, ∃ segments, segments ≠ [] ∧
    (∀ segment ∈ segments, Plain segment) ∧
    render file = [platform.sep].intercalate segments
  same : ∀ file ∈ files, ∀ other ∈ files,
    platform.outputNameIdentity folding (render file) =
      platform.outputNameIdentity folding (render other) →
    platform.outputNameIdentity folding
        (file.pathInsideRoot.getD torrentRootName) =
      platform.outputNameIdentity folding
        (other.pathInsideRoot.getD torrentRootName)
  ancestor : ∀ file ∈ files, ∀ other ∈ files,
    Ancestor platform.sep
      (platform.outputNameIdentity folding (render file))
      (platform.outputNameIdentity folding (render other)) →
    Ancestor platform.sep
      (platform.outputNameIdentity folding
        (file.pathInsideRoot.getD torrentRootName))
      (platform.outputNameIdentity folding
        (other.pathInsideRoot.getD torrentRootName))

def rendered (render : ParsedBtFile → Text) (file : ParsedBtFile) :
    BtOutputFilePath where
  fileIndex := file.fileIndex
  relativePath := render file

section Layout

variable {infoHash torrentRootName : Text} {multiFile : Bool}
  {files : List EngineTorrentFile}

theorem mem_parsedFiles {parsed : ParsedBtFile} :
    parsed ∈ parsedFiles platform multiFile files ↔
      ∃ file, files[parsed.fileIndex]? = some file ∧
        parsed.pathInsideRoot = pathInsideRoot platform multiFile file := by
  unfold parsedFiles
  rw [List.mem_map]
  constructor
  · rintro ⟨⟨file, index⟩, inside, rfl⟩
    exact ⟨file, List.mem_zipIdx_iff_getElem?.mp inside, rfl⟩
  · rintro ⟨file, there, inside⟩
    refine ⟨(file, parsed.fileIndex), ?_, ?_⟩
    · exact List.mem_zipIdx_iff_getElem?.mpr there
    · show ParsedBtFile.mk parsed.fileIndex _ = parsed
      rw [← inside]

/-- Two files under one identity are padding of one length. -/
theorem Acceptable.shared (acceptable : Acceptable platform folding infoHash
      torrentRootName multiFile files) {index other : Nat}
    {file second : EngineTorrentFile} (here : files[index]? = some file)
    (there : files[other]? = some second) (distinct : index ≠ other)
    (same : (entryOf platform folding torrentRootName multiFile file).key =
      (entryOf platform folding torrentRootName multiFile second).key) :
    sharesPath file second = true := by
  have pairwise := List.pairwise_iff_getElem.mp
    (List.pairwise_map.mp acceptable.compatible)
  obtain ⟨within, rfl⟩ := List.getElem?_eq_some_iff.mp here
  obtain ⟨bound, rfl⟩ := List.getElem?_eq_some_iff.mp there
  rcases Nat.lt_or_gt_of_ne distinct with before | after
  · exact pairwise index other within bound before same
  · have compatible : Compatible
        (entryOf platform folding torrentRootName multiFile files[other])
        (entryOf platform folding torrentRootName multiFile files[index]) :=
      pairwise other index bound within after
    exact compatible.symm same

theorem Acceptable.safePlan (acceptable : Acceptable platform folding infoHash
      torrentRootName multiFile files) {render : ParsedBtFile → Text}
    (renders : Renders platform folding torrentRootName
      (parsedFiles platform multiFile files) render) :
    SafePlan platform folding files
      ((parsedFiles platform multiFile files).map (rendered render)) := by
  have partWise := outputNameIdentity_partWise platform folding
  have located : ∀ (root : AbsolutePath),
      ∀ file ∈ parsedFiles platform multiFile files,
      platform.outputNameIdentity folding
          (root.locate platform (render file)) =
        platform.outputNameIdentity folding (root.base platform) ++
          platform.sep ::
            platform.outputNameIdentity folding (render file) := by
    intro root file inside
    obtain ⟨segments, some, plain, rewrites⟩ := renders.plain file inside
    rw [rewrites, root.locate_plain some plain, partWise.separates]
  constructor
  · unfold parsedFiles
    rw [List.map_map, List.map_map]
    show files.zipIdx.map Prod.snd = _
    rw [List.zipIdx_map_snd, List.range_eq_range']
  · intro root path inside
    obtain ⟨file, among, rfl⟩ := List.mem_map.mp inside
    obtain ⟨segments, some, plain, rewrites⟩ := renders.plain file among
    refine ⟨segments, some, ?_⟩
    show root.segmentsOf platform (render file) = _
    rw [rewrites, root.segmentsOf_plain some plain]
  · intro root path inside other there distinct same
    obtain ⟨file, among, rfl⟩ := List.mem_map.mp inside
    obtain ⟨second, also, rfl⟩ := List.mem_map.mp there
    change platform.outputNameIdentity folding
      (root.locate platform (render file)) = platform.outputNameIdentity
        folding (root.locate platform (render second)) at same
    rw [located root file among, located root second also] at same
    have keys := renders.same file among second also
      (List.cons.inj (List.append_cancel_left same)).2
    obtain ⟨source, found, path⟩ := mem_parsedFiles.mp among
    obtain ⟨target, stored, path'⟩ := mem_parsedFiles.mp also
    rw [path, path'] at keys
    refine ⟨source, target, found, stored, ?_⟩
    exact sharesPath_iff.mp (acceptable.shared found stored distinct keys)
  · intro root path inside other there ancestor
    obtain ⟨file, among, rfl⟩ := List.mem_map.mp inside
    obtain ⟨second, also, rfl⟩ := List.mem_map.mp there
    change Ancestor platform.sep (platform.outputNameIdentity folding
      (root.locate platform (render file))) (platform.outputNameIdentity
        folding (root.locate platform (render second))) at ancestor
    rw [located root file among, located root second also,
      ancestor_below] at ancestor
    have nested := renders.ancestor file among second also ancestor
    obtain ⟨source, found, path⟩ := mem_parsedFiles.mp among
    obtain ⟨target, stored, path'⟩ := mem_parsedFiles.mp also
    rw [path, path'] at nested
    exact acceptable.apart target (List.mem_of_getElem? stored) source
      (List.mem_of_getElem? found) nested

/-- The path of an accepted file inside of the root is one of plain segments. -/
theorem AcceptableFile.inside_plain {file : EngineTorrentFile}
    (acceptable : AcceptableFile platform torrentRootName true file) :
    ∃ segments, segments ≠ [] ∧ (∀ segment ∈ segments, Plain segment) ∧
      pathInsideRoot platform true file =
        some ([platform.sep].intercalate segments) := by
  have deep : 2 ≤ file.pathComponents.length := acceptable.depth
  have nonempty : file.pathComponents.drop 1 ≠ [] := by
    apply List.ne_nil_of_length_pos
    rw [List.length_drop]
    omega
  have plain : ∀ segment ∈ file.pathComponents.drop 1, Plain segment :=
    fun segment inside => isValidComponent_plain
      (acceptable.valid segment (List.mem_of_mem_drop inside))
  refine ⟨file.pathComponents.drop 1, nonempty, plain, ?_⟩
  exact congrArg some (join_plain nonempty plain)

def belowEntry (platform : ProcessPlatform) (entry : Text)
    (file : ParsedBtFile) : Text :=
  match file.pathInsideRoot with
  | none => entry
  | some inside => platform.join [entry, inside]

theorem pathsBelow_eq (entry : Text) (parsed : ParsedBtFileLayout) :
    pathsBelow platform entry parsed =
      parsed.files.map (rendered (belowEntry platform entry)) := by
  apply List.map_congr_left
  intro file _
  rfl

theorem Acceptable.renders_below (acceptable : Acceptable platform folding
      infoHash torrentRootName multiFile files) {entry : Text}
    (plain : Plain entry) :
    Renders platform folding torrentRootName
      (parsedFiles platform multiFile files) (belowEntry platform entry) := by
  have partWise := outputNameIdentity_partWise platform folding
  cases multiFile with
  | false =>
      have alone : ∀ file ∈ parsedFiles platform false files,
          file.pathInsideRoot = none := by
        intro file inside
        obtain ⟨_, _, path⟩ := mem_parsedFiles.mp inside
        exact path
      have entries : ∀ file ∈ parsedFiles platform false files,
          belowEntry platform entry file = entry := by
        intro file inside
        unfold belowEntry
        rw [alone file inside]
      constructor
      · intro file inside
        refine ⟨[entry], List.cons_ne_nil _ _, ?_, ?_⟩
        · exact List.forall_mem_singleton.mpr plain
        · rw [entries file inside, List.intercalate_singleton]
      · intro file inside other there _
        rw [alone file inside, alone other there]
      · intro file inside other there ancestor
        rw [entries file inside, entries other there] at ancestor
        exact absurd ancestor (Ancestor.irrefl _)
  | true =>
      have below : ∀ file ∈ parsedFiles platform true files,
          ∃ segments, segments ≠ [] ∧
            (∀ segment ∈ segments, Plain segment) ∧
            file.pathInsideRoot =
              some ([platform.sep].intercalate segments) ∧
            belowEntry platform entry file =
              entry ++ platform.sep ::
                [platform.sep].intercalate segments := by
        intro file inside
        obtain ⟨source, found, path⟩ := mem_parsedFiles.mp inside
        obtain ⟨segments, nonempty, all, joined⟩ :=
          (acceptable.accepted source (List.mem_of_getElem? found)).inside_plain
        refine ⟨segments, nonempty, all, path.trans joined, ?_⟩
        unfold belowEntry
        rw [path, joined]
        exact join_below nonempty all plain
      constructor
      · intro file inside
        obtain ⟨segments, nonempty, all, _, joined⟩ := below file inside
        refine ⟨entry :: segments, List.cons_ne_nil _ _, ?_, ?_⟩
        · exact List.forall_mem_cons.mpr ⟨plain, all⟩
        · rw [joined, intercalate_cons nonempty]
      · intro file inside other there same
        obtain ⟨segments, _, _, path, joined⟩ := below file inside
        obtain ⟨others, _, _, path', joined'⟩ := below other there
        rw [joined, joined', partWise.separates, partWise.separates] at same
        rw [path, path']
        exact (List.cons.inj (List.append_cancel_left same)).2
      · intro file inside other there ancestor
        obtain ⟨segments, _, _, path, joined⟩ := below file inside
        obtain ⟨others, _, _, path', joined'⟩ := below other there
        rw [joined, joined', partWise.separates, partWise.separates,
          ancestor_below] at ancestor
        rw [path, path']
        exact ancestor

theorem Acceptable.renders_direct (acceptable : Acceptable platform folding
      infoHash torrentRootName true files) :
    Renders platform folding torrentRootName
      (parsedFiles platform true files) (·.pathInsideRoot.getD []) := by
  have present : ∀ file ∈ parsedFiles platform true files,
      file.pathInsideRoot.getD [] =
        file.pathInsideRoot.getD torrentRootName := by
    intro file inside
    obtain ⟨source, found, path⟩ := mem_parsedFiles.mp inside
    rw [path]
    rfl
  constructor
  · intro file inside
    obtain ⟨source, found, path⟩ := mem_parsedFiles.mp inside
    obtain ⟨segments, nonempty, all, joined⟩ :=
      (acceptable.accepted source (List.mem_of_getElem? found)).inside_plain
    refine ⟨segments, nonempty, all, ?_⟩
    show file.pathInsideRoot.getD [] = _
    rw [path, joined, Option.getD_some]
  · intro file inside other there same
    change platform.outputNameIdentity folding (file.pathInsideRoot.getD []) =
      platform.outputNameIdentity folding (other.pathInsideRoot.getD []) at same
    rw [present file inside, present other there] at same
    exact same
  · intro file inside other there ancestor
    have nested : Ancestor platform.sep
        (platform.outputNameIdentity folding (file.pathInsideRoot.getD []))
        (platform.outputNameIdentity folding
          (other.pathInsideRoot.getD [])) := ancestor
    rw [present file inside, present other there] at nested
    exact nested

end Layout

theorem directPath_eq_ok (file : ParsedBtFile) (path : BtOutputFilePath) :
    directPath file = .ok path ↔
      file.pathInsideRoot.getD [] ≠ [] ∧
        path = rendered (·.pathInsideRoot.getD []) file := by
  obtain ⟨index, inside⟩ := file
  cases inside with
  | none => simp [directPath, throw_eq_ok]
  | some inside =>
      cases inside with
      | nil => simp [directPath, throw_eq_ok]
      | cons unit rest => simp [directPath, rendered, eq_comm]

/-! ## Every plan is safe -/

/-- The plans that can be derived from a layout. -/
structure SafePlans (platform : ProcessPlatform) (folding : NameFolding)
    (host : PathHost) (files : List EngineTorrentFile)
    (layout : ParsedBtFileLayout) : Prop where
  direct : ∀ finalPath torrentMetaPath plan paths,
    buildBtDirectOutputPaths platform host finalPath (some layout)
      torrentMetaPath = .ok plan →
    plan.outputFilePaths = some paths →
    SafePlan platform folding files paths
  staging : ∀ storageLayout paths,
    buildStagingOutputFilePaths platform layout storageLayout = .ok paths →
    SafePlan platform folding files paths
  final : ∀ finalPath expectedLayout paths,
    buildFinalOutputFilePaths platform host layout finalPath expectedLayout =
      .ok paths →
    SafePlan platform folding files paths

theorem payloadEntry_plain : Plain PAYLOAD_ENTRY := by
  constructor
  all_goals decide

theorem Acceptable.safePlans {host : PathHost} {parsed : EngineTorrent}
    {torrentRootName : Text}
    (acceptable : Acceptable platform folding parsed.infoHash torrentRootName
      parsed.isMultiFile (parsed.files.getD [])) :
    SafePlans platform folding host (parsed.files.getD [])
      (layoutOf platform parsed torrentRootName) := by
  have below : ∀ entry, Plain entry → SafePlan platform folding
      (parsed.files.getD []) (pathsBelow platform entry
        (layoutOf platform parsed torrentRootName)) := by
    intro entry plain
    rw [pathsBelow_eq]
    exact acceptable.safePlan (acceptable.renders_below plain)
  have final : ∀ finalPath expectedLayout paths,
      buildFinalOutputFilePaths platform host
        (layoutOf platform parsed torrentRootName) finalPath expectedLayout =
          .ok paths → SafePlan platform folding (parsed.files.getD []) paths := by
    intro finalPath expectedLayout paths built
    obtain ⟨_, _, rest⟩ := bind_eq_ok.mp built
    obtain ⟨entry, valid, rest⟩ := bind_eq_ok.mp rest
    rw [← pure_eq_ok.mp rest]
    apply below
    exact isValidComponent_plain (validatePathComponent_eq_ok.mp valid).1
  constructor
  · intro finalPath torrentMetaPath plan paths built listed
    obtain ⟨_, rest⟩ := guard_eq_ok.mp built
    by_cases single : (!parsed.isMultiFile) = true
    · rw [if_pos (show (!(layoutOf platform parsed
        torrentRootName).multiFile) = true from single)] at rest
      obtain ⟨written, built', rest⟩ := bind_eq_ok.mp rest
      rw [← pure_eq_ok.mp rest] at listed
      cases listed
      exact final finalPath none paths built'
    · rw [if_neg (show ¬(!(layoutOf platform parsed
        torrentRootName).multiFile) = true from single)] at rest
      obtain ⟨written, built', rest⟩ := bind_eq_ok.mp rest
      rw [← pure_eq_ok.mp rest] at listed
      cases listed
      obtain ⟨_, rfl⟩ := (mapM_eq_ok_iff directPath_eq_ok).mp built'
      have multiple : parsed.isMultiFile = true := by
        simpa using single
      rw [multiple] at acceptable
      have safe := acceptable.safePlan acceptable.renders_direct
      rw [← multiple] at safe
      exact safe
  · intro storageLayout paths built
    obtain ⟨_, _, rest⟩ := bind_eq_ok.mp built
    rw [← pure_eq_ok.mp rest]
    exact below PAYLOAD_ENTRY payloadEntry_plain
  · exact final

theorem isOk_iff {ε α : Type} {computed : Except ε α} :
    computed.isOk = true ↔ ∃ value, computed = .ok value := by
  constructor
  · exact exists_ok_of_isOk
  · rintro ⟨value, rfl⟩
    rfl

theorem parse_perm {parsed : EngineTorrent}
    {files others : List EngineTorrentFile} (same : files.Perm others)
    (succeeded : (parseBtFileLayout platform folding
      { parsed with files := some files }).isOk = true) :
    (parseBtFileLayout platform folding
      { parsed with files := some others }).isOk = true := by
  obtain ⟨layout, done⟩ := isOk_iff.mp succeeded
  obtain ⟨torrentRootName, named, acceptable, _⟩ :=
    parseBtFileLayout_eq_ok.mp done
  apply isOk_iff.mpr
  exact ⟨_, parseBtFileLayout_eq_ok.mpr
    ⟨torrentRootName, named, acceptable.perm same, rfl⟩⟩

/-- Accepted metadata yields safe plans, and no order of the files is
accepted where another one is not. -/
theorem parseBtFileLayout_safe (platform : ProcessPlatform)
    (folding : NameFolding) (host : PathHost) (parsed : EngineTorrent) :
    (∀ layout, parseBtFileLayout platform folding parsed = .ok layout →
      SafePlans platform folding host (parsed.files.getD []) layout) ∧
    ∀ files others : List EngineTorrentFile, files.Perm others →
      (parseBtFileLayout platform folding
        { parsed with files := some files }).isOk =
      (parseBtFileLayout platform folding
        { parsed with files := some others }).isOk := by
  constructor
  · intro layout done
    obtain ⟨torrentRootName, _, acceptable, rfl⟩ :=
      parseBtFileLayout_eq_ok.mp done
    exact acceptable.safePlans
  · intro files others same
    apply Bool.eq_iff_iff.mpr
    constructor
    · exact parse_perm same
    · exact parse_perm same.symm

/-- Names without upper case and without marks are as they are folded. -/
def plainFolding : NameFolding where
  fold text := text
  slash := PartWise.id
  backslash := PartWise.id

def twoFiles : EngineTorrent where
  infoHash := List.replicate 40 'a'
  name := some "show".toList
  isPrivate := none
  multiFile := some true
  files := some [
    { pathComponents := ["show".toList, "s1".toList, "a.mkv".toList]
      length := 7
      padding := false },
    { pathComponents := ["show".toList, "s1".toList, "b.mkv".toList]
      length := 9
      padding := false }]

/-- Paths without a separator at the end. -/
def slashPaths : PathHost where
  basename path := (path.reverse.takeWhile (· != '/')).reverse
  dirname path := ((path.reverse.dropWhile (· != '/')).drop 1).reverse

theorem twoFiles_safe :
    ∃ layout, parseBtFileLayout .darwin plainFolding twoFiles = .ok layout ∧
      SafePlans .darwin plainFolding slashPaths (twoFiles.files.getD [])
        layout := by
  have done : parseBtFileLayout .darwin plainFolding twoFiles =
      .ok (layoutOf .darwin twoFiles "show".toList) := rfl
  have safe := parseBtFileLayout_safe .darwin plainFolding slashPaths twoFiles
  exact ⟨_, done, safe.1 _ done⟩

end Motrix.BtLayout
