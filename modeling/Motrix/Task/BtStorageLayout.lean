import Motrix.Lib.Separated
import Motrix.Lib.Except

/-!
# Paths of the host

The part of the host's path module that maps the files of a torrent.  A text
is a list of characters.  What normalizes and folds the case of a name is a
parameter that works part by part.
-/

namespace Motrix.BtLayout

open Lib.Separated

abbrev Text := List Char

inductive ProcessPlatform where
  | darwin
  | win32
  | other
  deriving DecidableEq

/-- `value.normalize('NFD').toLowerCase()` -/
structure NameFolding where
  fold : Text → Text
  slash : PartWise '/' fold
  backslash : PartWise '\\' fold

namespace ProcessPlatform

def sep : ProcessPlatform → Char
  | .win32 => '\\'
  | _ => '/'

def isSeparator (platform : ProcessPlatform) (unit : Char) : Bool :=
  unit == '/' || (platform == .win32 && unit == '\\')

def currentSegment : Text := ['.']

def parentSegment : Text := ['.', '.']

def pushSegment (allowAboveRoot : Bool) (resolved : List Text)
    (segment : Text) : List Text :=
  if segment = [] ∨ segment = currentSegment then resolved
  else if segment = parentSegment then
    if resolved.getLast?.any (· != parentSegment) then resolved.dropLast
    else if allowAboveRoot then resolved ++ [segment]
    else resolved
  else resolved ++ [segment]

/-- The segments of the normalized text. -/
def normalizeString (platform : ProcessPlatform) (allowAboveRoot : Bool)
    (path : Text) : List Text :=
  (path.splitOnP platform.isSeparator).foldl (pushSegment allowAboveRoot) []

/-- `path.normalize` of a path without a device. -/
def normalize (platform : ProcessPlatform) (path : Text) : Text :=
  let isAbsolute := path.head?.any platform.isSeparator
  let trailingSeparator := path.getLast?.any platform.isSeparator
  let segments := platform.normalizeString (!isAbsolute) path
  if segments = [] ∧ isAbsolute then [platform.sep]
  else
    (if isAbsolute then [platform.sep] else []) ++
      (if segments = [] then currentSegment
        else [platform.sep].intercalate segments) ++
      (if trailingSeparator then [platform.sep] else [])

def join (platform : ProcessPlatform) (parts : List Text) : Text :=
  platform.normalize ([platform.sep].intercalate (parts.filter (· ≠ [])))

def outputNameIdentity (platform : ProcessPlatform) (folding : NameFolding)
    (value : Text) : Text :=
  match platform with
  | .darwin => folding.fold value
  | .win32 => folding.fold value
  | .other => value

theorem outputNameIdentity_partWise (platform : ProcessPlatform)
    (folding : NameFolding) :
    PartWise platform.sep (platform.outputNameIdentity folding) := by
  cases platform with
  | darwin => exact folding.slash
  | win32 => exact folding.backslash
  | other => exact PartWise.id

end ProcessPlatform

/-- An absolute path: what precedes its first separator and what follows. -/
structure AbsolutePath where
  device : Text
  tail : Text

namespace AbsolutePath

def segments (platform : ProcessPlatform) (root : AbsolutePath) :
    List Text :=
  platform.normalizeString false root.tail

/-- The segments of the place that a relative path names below the root. -/
def segmentsOf (platform : ProcessPlatform) (root : AbsolutePath)
    (relativePath : Text) : List Text :=
  platform.normalizeString false (root.tail ++ platform.sep :: relativePath)

/-- The place itself. -/
def locate (platform : ProcessPlatform) (root : AbsolutePath)
    (relativePath : Text) : Text :=
  root.device ++ platform.sep ::
    [platform.sep].intercalate (root.segmentsOf platform relativePath)

/-- The text that every place below the root continues. -/
def base (platform : ProcessPlatform) (root : AbsolutePath) : Text :=
  if root.segments platform = [] then root.device
  else root.device ++ platform.sep ::
    [platform.sep].intercalate (root.segments platform)

end AbsolutePath

/-! ## Plain segments -/

/-- A segment that normalization keeps. -/
structure Plain (segment : Text) : Prop where
  nonempty : segment ≠ []
  notCurrent : segment ≠ ProcessPlatform.currentSegment
  notParent : segment ≠ ProcessPlatform.parentSegment
  slash : '/' ∉ segment
  backslash : '\\' ∉ segment

namespace ProcessPlatform

variable {platform : ProcessPlatform}

theorem sep_isSeparator (platform : ProcessPlatform) :
    platform.isSeparator platform.sep = true := by
  cases platform with
  | darwin => rfl
  | win32 => rfl
  | other => rfl

theorem isSeparator_cases {unit : Char}
    (separates : platform.isSeparator unit = true) :
    unit = '/' ∨ unit = '\\' := by
  unfold isSeparator at separates
  rw [Bool.or_eq_true, Bool.and_eq_true] at separates
  rcases separates with slash | ⟨_, backslash⟩
  · exact Or.inl (beq_iff_eq.mp slash)
  · exact Or.inr (beq_iff_eq.mp backslash)

end ProcessPlatform

open ProcessPlatform

variable {platform : ProcessPlatform}

theorem Plain.fresh {segment : Text} (plain : Plain segment)
    (platform : ProcessPlatform) :
    ∀ unit ∈ segment, platform.isSeparator unit = false := by
  intro unit inside
  rw [← Bool.not_eq_true]
  intro separates
  rcases isSeparator_cases separates with rfl | rfl
  · exact plain.slash inside
  · exact plain.backslash inside

namespace ProcessPlatform

theorem splitOnP_plain {segments : List Text} (some : segments ≠ [])
    (plain : ∀ segment ∈ segments, Plain segment) :
    ([platform.sep].intercalate segments).splitOnP platform.isSeparator =
      segments := by
  induction segments with
  | nil => exact absurd rfl some
  | cons first rest induction =>
      have fresh := (plain first List.mem_cons_self).fresh platform
      cases rest with
      | nil =>
          rw [List.intercalate_singleton]
          exact List.splitOnP_eq_singleton fresh
      | cons second others =>
          have rest' := induction (List.cons_ne_nil _ _) fun segment inside =>
            plain segment (List.mem_cons_of_mem _ inside)
          have front : [platform.sep].intercalate (first :: second :: others) =
              first ++ platform.sep ::
                [platform.sep].intercalate (second :: others) := by
            rw [List.intercalate_cons_cons, List.append_assoc]
            rfl
          rw [front, List.splitOnP_append_cons_of_forall_mem fresh _
            (sep_isSeparator platform), rest']

theorem pushSegment_plain (allowAboveRoot : Bool) (resolved : List Text)
    {segment : Text} (plain : Plain segment) :
    pushSegment allowAboveRoot resolved segment = resolved ++ [segment] := by
  have visible : ¬(segment = [] ∨ segment = currentSegment) := by
    rintro (empty | current)
    · exact plain.nonempty empty
    · exact plain.notCurrent current
  unfold pushSegment
  rw [if_neg visible, if_neg plain.notParent]

theorem foldl_plain (allowAboveRoot : Bool) (resolved : List Text)
    {segments : List Text} (plain : ∀ segment ∈ segments, Plain segment) :
    segments.foldl (pushSegment allowAboveRoot) resolved =
      resolved ++ segments := by
  induction segments generalizing resolved with
  | nil => exact (List.append_nil _).symm
  | cons first rest induction =>
      rw [List.foldl_cons, pushSegment_plain _ _ (plain _ List.mem_cons_self),
        induction _ fun segment inside =>
          plain segment (List.mem_cons_of_mem _ inside)]
      simp

theorem normalizeString_plain (allowAboveRoot : Bool) {segments : List Text}
    (some : segments ≠ []) (plain : ∀ segment ∈ segments, Plain segment) :
    platform.normalizeString allowAboveRoot
      ([platform.sep].intercalate segments) = segments := by
  unfold normalizeString
  rw [splitOnP_plain some plain, foldl_plain _ _ plain, List.nil_append]

theorem head_plain {segments : List Text} (some : segments ≠ [])
    (plain : ∀ segment ∈ segments, Plain segment) :
    ([platform.sep].intercalate segments).head?.any platform.isSeparator =
      false := by
  obtain ⟨segment, rest, rfl⟩ := List.exists_cons_of_ne_nil some
  have here := plain segment List.mem_cons_self
  obtain ⟨unit, units, rfl⟩ := List.exists_cons_of_ne_nil here.nonempty
  have fresh := here.fresh platform unit List.mem_cons_self
  cases rest with
  | nil => simpa using fresh
  | cons second others => simpa using fresh

theorem last_plain {segments : List Text} (some : segments ≠ [])
    (plain : ∀ segment ∈ segments, Plain segment) :
    ([platform.sep].intercalate segments).getLast?.any platform.isSeparator =
      false := by
  obtain ⟨front, segment, rfl⟩ :=
    (List.eq_nil_or_concat segments).resolve_left some
  have here := plain segment (by simp)
  obtain ⟨units, unit, rfl⟩ :=
    (List.eq_nil_or_concat segment).resolve_left here.nonempty
  have fresh := here.fresh platform unit (by simp)
  cases front with
  | nil => simpa using fresh
  | cons part parts =>
      rw [List.concat_eq_append, intercalate_append (List.cons_ne_nil _ _)
        (List.cons_ne_nil _ _)]
      simpa [List.getLast?_cons, List.getLast?_append] using fresh

theorem normalize_plain {segments : List Text} (some : segments ≠ [])
    (plain : ∀ segment ∈ segments, Plain segment) :
    platform.normalize ([platform.sep].intercalate segments) =
      [platform.sep].intercalate segments := by
  unfold normalize
  simp only [normalizeString_plain _ some plain, head_plain some plain,
    last_plain some plain, some, Bool.false_eq_true, if_false, and_false,
    List.nil_append, List.append_nil]

/-- Plain segments are joined as they are. -/
theorem join_plain {segments : List Text} (some : segments ≠ [])
    (plain : ∀ segment ∈ segments, Plain segment) :
    platform.join segments = [platform.sep].intercalate segments := by
  have kept : segments.filter (· ≠ []) = segments := by
    apply List.filter_eq_self.mpr
    intro segment inside
    exact decide_eq_true (plain segment inside).nonempty
  unfold join
  rw [kept]
  exact normalize_plain some plain

theorem intercalate_ne_nil {segments : List Text} (some : segments ≠ [])
    (plain : ∀ segment ∈ segments, Plain segment) :
    [platform.sep].intercalate segments ≠ [] := by
  intro empty
  have split : ([platform.sep].intercalate segments).splitOnP
      platform.isSeparator = segments := splitOnP_plain some plain
  rw [empty] at split
  have here : ([] : Text) ∈ segments := by
    rw [← split]
    exact List.mem_singleton.mpr rfl
  exact (plain [] here).nonempty rfl

theorem intercalate_cons {segments : List Text} (some : segments ≠ [])
    (entry : Text) :
    [platform.sep].intercalate (entry :: segments) =
      entry ++ platform.sep :: [platform.sep].intercalate segments := by
  obtain ⟨segment, rest, rfl⟩ := List.exists_cons_of_ne_nil some
  rw [List.intercalate_cons_cons, List.append_assoc]
  rfl

theorem join_below {entry : Text} {segments : List Text}
    (some : segments ≠ []) (plain : ∀ segment ∈ segments, Plain segment)
    (entryPlain : Plain entry) :
    platform.join [entry, [platform.sep].intercalate segments] =
      entry ++ platform.sep :: [platform.sep].intercalate segments := by
  have kept : [entry, [platform.sep].intercalate segments].filter (· ≠ []) =
      [entry, [platform.sep].intercalate segments] := by
    apply List.filter_eq_self.mpr
    rintro part inside
    apply decide_eq_true
    rcases List.mem_pair.mp inside with rfl | rfl
    · exact entryPlain.nonempty
    · exact intercalate_ne_nil some plain
  have all : ∀ segment ∈ entry :: segments, Plain segment :=
    List.forall_mem_cons.mpr ⟨entryPlain, plain⟩
  have normal : platform.normalize
      ([platform.sep].intercalate (entry :: segments)) =
        [platform.sep].intercalate (entry :: segments) :=
    normalize_plain (List.cons_ne_nil _ _) all
  rw [intercalate_cons some] at normal
  unfold join
  rw [kept, intercalate_cons (List.cons_ne_nil _ _),
    List.intercalate_singleton]
  exact normal

end ProcessPlatform

namespace AbsolutePath

variable {platform : ProcessPlatform} {segments : List Text}

theorem segmentsOf_plain (root : AbsolutePath) (some : segments ≠ [])
    (plain : ∀ segment ∈ segments, Plain segment) :
    root.segmentsOf platform ([platform.sep].intercalate segments) =
      root.segments platform ++ segments := by
  unfold segmentsOf AbsolutePath.segments normalizeString
  rw [List.splitOnP_append_cons _ _ (sep_isSeparator platform),
    splitOnP_plain some plain, List.foldl_append, foldl_plain _ _ plain]

theorem locate_plain (root : AbsolutePath) (some : segments ≠ [])
    (plain : ∀ segment ∈ segments, Plain segment) :
    root.locate platform ([platform.sep].intercalate segments) =
      root.base platform ++
        platform.sep :: [platform.sep].intercalate segments := by
  unfold locate base
  rw [root.segmentsOf_plain some plain]
  by_cases empty : root.segments platform = []
  · rw [if_pos empty, empty, List.nil_append]
  · rw [if_neg empty, intercalate_append empty some]
    simp

end AbsolutePath

end Motrix.BtLayout

/-!
# Storage layouts of torrents

The file paths that torrent metadata declares are checked, compared by name
identity and mapped into a directory that the host has chosen.
-/

namespace Motrix.BtLayout

open Lib Lib.Separated

def PAYLOAD_ENTRY : Text := ['p']

inductive LayoutError where
  | unsafeTorrentPath (message : String)
  | error (message : String)
  deriving DecidableEq

structure EngineTorrentFile where
  pathComponents : List Text
  length : Nat
  padding : Bool
  deriving DecidableEq

structure EngineTorrent where
  infoHash : Text
  name : Option Text
  isPrivate : Option Bool
  multiFile : Option Bool
  files : Option (List EngineTorrentFile)

structure ParsedBtFile where
  fileIndex : Nat
  pathInsideRoot : Option Text
  deriving DecidableEq

structure ParsedBtFileLayout where
  infoHash : Text
  torrentRootName : Text
  multiFile : Bool
  isPrivate : Bool
  files : List ParsedBtFile
  deriving DecidableEq

structure BtOutputFilePath where
  fileIndex : Nat
  relativePath : Text
  deriving DecidableEq

/-- `workspacePath` identifies the workspace of an older task. -/
structure BtStorageLayoutV1 where
  workspacePath : Text
  torrentRootName : Text
  multiFile : Bool

structure BtDirectOutputPaths where
  saveDir : Text
  outputRoot : Option Text
  outputFilePaths : Option (List BtOutputFilePath)

/-! ## Path components -/

def asciiLower (unit : Char) : Char :=
  if 'A' ≤ unit ∧ unit ≤ 'Z' then Char.ofNat (unit.toNat + 32) else unit

/-- The device names of the host, without a case. -/
def isReservedStem (stem : Text) : Bool :=
  let lower := stem.map asciiLower
  ["con", "prn", "aux", "nul"].any (fun device => lower == device.toList) ||
    ["com", "lpt"].any fun device =>
      ['1', '2', '3', '4', '5', '6', '7', '8', '9', '¹', '²', '³'].any
        fun port => lower == device.toList ++ [port]

def isWindowsName (value : Text) : Bool :=
  !(value.any fun unit =>
      ['<', '>', ':', '"', '|', '?', '*'].contains unit) &&
    !(value.getLast?.any fun unit => unit == '.' || unit == ' ') &&
    !isReservedStem (value.takeWhile (· != '.'))

def isValidComponent (platform : ProcessPlatform) (value : Text) : Bool :=
  value != [] &&
    value != ProcessPlatform.currentSegment &&
    value != ProcessPlatform.parentSegment &&
    !value.contains '/' &&
    !value.contains '\\' &&
    !(value.any fun unit => unit.toNat < 32 || unit.toNat == 127) &&
    (platform != .win32 || isWindowsName value)

/-- The value is `none` when it is no string. -/
def validatePathComponent (platform : ProcessPlatform) (value : Option Text)
    (description : String) : Except LayoutError Text :=
  match value with
  | some value =>
      if isValidComponent platform value then .ok value
      else throw (.unsafeTorrentPath s!"Invalid {description}")
  | none => throw (.unsafeTorrentPath s!"Invalid {description}")

/-! ## Parsing -/

def isHexDigit (unit : Char) : Bool :=
  unit.isDigit || ('a' ≤ asciiLower unit && asciiLower unit ≤ 'f')

def isInfoHash (infoHash : Text) : Bool :=
  infoHash.length == 40 && infoHash.all isHexDigit

def parseFile (platform : ProcessPlatform) (torrentRootName : Text)
    (multiFile : Bool) (entry : EngineTorrentFile × Nat) :
    Except LayoutError ParsedBtFile := do
  let fileIndex := entry.2
  let components ← entry.1.pathComponents.mapM fun component =>
    validatePathComponent platform (some component) "torrent file path"
  if components.head? ≠ some torrentRootName then
    throw (.unsafeTorrentPath
      s!"Torrent file {fileIndex} is outside its declared root directory")
  else if !multiFile then
    if components.length ≠ 1 then
      throw (.unsafeTorrentPath
        s!"Single-file torrent {fileIndex} has a nested path")
    else
      return ⟨fileIndex, none⟩
  else if components.length < 2 then
    throw (.unsafeTorrentPath
      s!"Multi-file torrent {fileIndex} has an empty path")
  else
    return ⟨fileIndex, some (platform.join (components.drop 1))⟩

/-- A file under its name identity. -/
structure MappedFile where
  key : Text
  source : EngineTorrentFile

def overlapping : LayoutError :=
  .unsafeTorrentPath "Overlapping torrent paths"

/-- Padding of one length may share a path. -/
def sharesPath (previous source : EngineTorrentFile) : Bool :=
  previous.padding && source.padding && previous.length == source.length

/-- The file that was mapped last under a key comes first. -/
def mapFile (mapped : List MappedFile) (entry : MappedFile) :
    Except LayoutError (List MappedFile) :=
  match mapped.find? (·.key == entry.key) with
  | some previous =>
      if sharesPath previous.source entry.source then .ok (entry :: mapped)
      else throw overlapping
  | none => .ok (entry :: mapped)

def hasAncestor (platform : ProcessPlatform) (mapped : List MappedFile)
    (key : Text) : Bool :=
  let parts := key.splitOn platform.sep
  (List.range' 1 (parts.length - 1)).any fun count =>
    mapped.any (·.key == [platform.sep].intercalate (parts.take count))

def mappedFile (platform : ProcessPlatform) (folding : NameFolding)
    (torrentRootName : Text) (entry : ParsedBtFile × EngineTorrentFile) :
    MappedFile where
  key := platform.outputNameIdentity folding
    (entry.1.pathInsideRoot.getD torrentRootName)
  source := entry.2

def parseBtFileLayout (platform : ProcessPlatform) (folding : NameFolding)
    (parsed : EngineTorrent) : Except LayoutError ParsedBtFileLayout :=
  if !isInfoHash parsed.infoHash then
    throw (.unsafeTorrentPath "Torrent contains no valid info hash")
  else do
    let torrentRootName ←
      validatePathComponent platform parsed.name "torrent name"
    let parsedFiles := parsed.files.getD []
    if parsedFiles = [] then
      throw (.unsafeTorrentPath "Torrent contains no files")
    else
      let multiFile := parsed.multiFile == some true
      let files ← parsedFiles.zipIdx.mapM
        (parseFile platform torrentRootName multiFile)
      let mapped ← ((files.zip parsedFiles).map
        (mappedFile platform folding torrentRootName)).foldlM mapFile []
      if mapped.any fun entry => hasAncestor platform mapped entry.key then
        throw overlapping
      else
        return {
          infoHash := parsed.infoHash.map asciiLower
          torrentRootName := torrentRootName
          multiFile := multiFile
          isPrivate := parsed.isPrivate == some true
          files := files }

/-! ## Output paths -/

def assertLayoutMatchesMetadata (layout : BtStorageLayoutV1)
    (parsed : ParsedBtFileLayout) : Except LayoutError Unit :=
  if layout.torrentRootName ≠ parsed.torrentRootName ∨
      layout.multiFile ≠ parsed.multiFile then
    throw (.error
      "Persisted BT storage layout does not match torrent metadata")
  else
    .ok ()

/-- The paths of the files below an entry of the output directory. -/
def pathsBelow (platform : ProcessPlatform) (entry : Text)
    (parsed : ParsedBtFileLayout) : List BtOutputFilePath :=
  parsed.files.map fun file =>
    { fileIndex := file.fileIndex
      relativePath :=
        match file.pathInsideRoot with
        | none => entry
        | some inside => platform.join [entry, inside] }

def buildStagingOutputFilePaths (platform : ProcessPlatform)
    (parsed : ParsedBtFileLayout) (layout : BtStorageLayoutV1) :
    Except LayoutError (List BtOutputFilePath) := do
  assertLayoutMatchesMetadata layout parsed
  return pathsBelow platform PAYLOAD_ENTRY parsed

/-- `path.basename` and `path.dirname` of the host. -/
structure PathHost where
  basename : Text → Text
  dirname : Text → Text

def buildFinalOutputFilePaths (platform : ProcessPlatform) (host : PathHost)
    (parsed : ParsedBtFileLayout) (finalPath : Text)
    (expectedLayout : Option BtStorageLayoutV1) :
    Except LayoutError (List BtOutputFilePath) := do
  expectedLayout.forM fun layout => assertLayoutMatchesMetadata layout parsed
  let finalEntry ←
    validatePathComponent platform (some (host.basename finalPath)) "final name"
  return pathsBelow platform finalEntry parsed

def directPath (file : ParsedBtFile) : Except LayoutError BtOutputFilePath :=
  match file.pathInsideRoot with
  | some (unit :: rest) =>
      .ok
        { fileIndex := file.fileIndex
          relativePath := unit :: rest }
  | _ => throw (.unsafeTorrentPath "Multi-file torrent has an empty path")

/-- A missing metadata path and an empty one are the same. -/
def buildBtDirectOutputPaths (platform : ProcessPlatform) (host : PathHost)
    (finalPath : Text) (parsed : Option ParsedBtFileLayout)
    (torrentMetaPath : Option Text) :
    Except LayoutError BtDirectOutputPaths :=
  match parsed with
  | none =>
      .ok
        { saveDir := finalPath
          outputRoot := none
          outputFilePaths := none }
  | some parsed => do
      let metaPath := torrentMetaPath.getD []
      if metaPath = [] then
        throw (.error "BT requires a durable torrent metadata path")
      else
        let saveDir := metaPath ++ ".state".toList
        if !parsed.multiFile then
          let paths ← buildFinalOutputFilePaths platform host parsed finalPath
            none
          return {
            saveDir := saveDir
            outputRoot := some (host.dirname finalPath)
            outputFilePaths := some paths }
        else
          let paths ← parsed.files.mapM directPath
          return {
            saveDir := saveDir
            outputRoot := some finalPath
            outputFilePaths := some paths }

end Motrix.BtLayout
