import Mathlib.Data.List.Basic

/-!
# The entries of a package

Before a package is unpacked its entries are scanned by their names alone.
Names are compared as they are written, and what is written twice, or is a
file where another name needs a directory, is refused.
-/

namespace Motrix.Moext

/-! ## Names -/

abbrev Path := List (List Char)

structure Entry where
  fileName : String
  uncompressedSize : Nat
  externalFileAttributes : Nat
  deriving DecidableEq

def Entry.name (entry : Entry) : List Char :=
  entry.fileName.toList

inductive MoextError where
  | zipSlip
  | zipSymlink
  | bundleTooLarge
  | pathCollision
  deriving DecidableEq

def MoextError.code : MoextError → String
  | zipSlip => "plugin.install.zip_slip"
  | zipSymlink => "plugin.install.zip_symlink"
  | bundleTooLarge => "plugin.manifest.bundle_too_large"
  | pathCollision => "plugin.install.path_collision"

def BUNDLE_SIZE_MAX : Nat := 1048576
def MOEXT_TOTAL_MAX : Nat := 5242880
def DEFAULT_BUNDLE_ENTRY : String := "dist/plugin.js"
def MANIFEST_ENTRY : String := "motrix-plugin.json"
def SYMLINK_MODE : Nat := 0o120000

def segments (text : List Char) : Path :=
  text.splitOn '/'

def joined (parts : Path) : List Char :=
  ['/'].intercalate parts

def isDirectory (name : List Char) : Bool :=
  name.getLast? == some '/'

def withoutTrailingSlash (name : List Char) : List Char :=
  if isDirectory name then name.dropLast else name

def isUnsafe (name : List Char) : Bool :=
  (segments name).contains ['.', '.'] || name.head? == some '/' ||
    name.contains '\\'

def assertSafeEntryName (name : List Char) : Except MoextError Unit :=
  if isUnsafe name then .error .zipSlip else .ok ()

def entryIsSymlink (entry : Entry) : Bool :=
  (entry.externalFileAttributes >>> 16) &&& 0o170000 == SYMLINK_MODE

/-! ## The scan -/

structure PathIndex where
  explicitPaths : List (List Char)
  filePaths : List (List Char)
  requiredDirectoryPaths : List (List Char)

/-- The directories that a name needs, as they are written in it. -/
def prefixes (text : List Char) : List (List Char) :=
  (List.range ((segments text).length - 1)).map fun i =>
    joined ((segments text).take (i + 1))

def requireDirectory (index : PathIndex) (front : List Char) :
    Except MoextError PathIndex :=
  if index.filePaths.contains front then .error .pathCollision
  else .ok
    { index with
      requiredDirectoryPaths := front :: index.requiredDirectoryPaths }

def registerPath (name : List Char) (isDirectory : Bool) (index : PathIndex) :
    Except MoextError PathIndex := do
  let text := if isDirectory then name.dropLast else name
  if text.isEmpty then .error .pathCollision
  else do
    let required ← (prefixes text).foldlM requireDirectory index
    if required.explicitPaths.contains text ||
        !isDirectory && required.requiredDirectoryPaths.contains text then
      .error .pathCollision
    else
      return { required with
        explicitPaths := text :: required.explicitPaths
        filePaths :=
          if isDirectory then required.filePaths
          else text :: required.filePaths }

structure Scan where
  index : PathIndex
  totalUncompressed : Nat
  hasManifest : Bool
  hasDefaultBundle : Bool

def scanEntry (scan : Scan) (entry : Entry) : Except MoextError Scan := do
  assertSafeEntryName entry.name
  let index ← registerPath entry.name (isDirectory entry.name) scan.index
  if entryIsSymlink entry then .error .zipSymlink
  else if scan.totalUncompressed + entry.uncompressedSize >
      MOEXT_TOTAL_MAX then
    .error .bundleTooLarge
  else if entry.fileName = DEFAULT_BUNDLE_ENTRY ∧
      entry.uncompressedSize > BUNDLE_SIZE_MAX then
    .error .bundleTooLarge
  else
    return {
      index := index
      totalUncompressed := scan.totalUncompressed + entry.uncompressedSize
      hasManifest := scan.hasManifest ||
        entry.fileName == MANIFEST_ENTRY && !isDirectory entry.name
      hasDefaultBundle := scan.hasDefaultBundle ||
        entry.fileName == DEFAULT_BUNDLE_ENTRY && !isDirectory entry.name }

def scanMoextEntries (entries : List Entry) : Except MoextError Scan :=
  entries.foldlM scanEntry
    { index := ⟨[], [], []⟩
      totalUncompressed := 0
      hasManifest := false
      hasDefaultBundle := false }

/-! ## What the scan accepts -/

def parts (name : List Char) : Path :=
  segments (withoutTrailingSlash name)

/-- Two names clash if they are written alike up to the trailing slash, or one
is a file and begins the other. -/
def Clash (first second : List Char) : Prop :=
  parts first = parts second ∨
    (isDirectory first = false ∧ parts first <+: parts second) ∨
    (isDirectory second = false ∧ parts second <+: parts first)

theorem Clash.symm {first second : List Char} (clash : Clash first second) :
    Clash second first := by
  rcases clash with same | front | back
  · exact .inl same.symm
  · exact .inr (.inr front)
  · exact .inr (.inl back)

theorem joined_segments (text : List Char) : joined (segments text) = text :=
  List.intercalate_splitOn '/'

theorem segments_clean {text segment : List Char}
    (member : segment ∈ segments text) : '/' ∉ segment := by
  unfold segments at member
  induction text generalizing segment with
  | nil =>
      rw [List.splitOn_nil, List.mem_singleton] at member
      exact member ▸ List.not_mem_nil
  | cons letter text induction =>
      rw [List.splitOn_cons_eq_if_modifyHead] at member
      split at member
      · rcases List.mem_cons.mp member with rfl | later
        · exact List.not_mem_nil
        · exact induction later
      · rename_i other
        cases rest : text.splitOn '/' with
        | nil => exact absurd rest (List.splitOn_ne_nil _ _)
        | cons head tail =>
            rw [rest] at member
            rcases List.mem_cons.mp member with rfl | later
            · intro slash
              rcases List.mem_cons.mp slash with rfl | inside
              · simp at other
              · exact induction (rest ▸ List.mem_cons_self) inside
            · exact induction (rest ▸ List.mem_cons_of_mem _ later)

theorem segments_joined {path : Path} (filled : path ≠ [])
    (clean : ∀ segment ∈ path, '/' ∉ segment) :
    segments (joined path) = path :=
  List.splitOn_intercalate '/' clean filled

theorem segments_ne_nil (text : List Char) : segments text ≠ [] :=
  List.splitOn_ne_nil _ _

theorem segments_inj {first second : List Char} :
    segments first = segments second ↔ first = second := by
  constructor
  · intro same
    rw [← joined_segments first, same, joined_segments]
  · exact congrArg segments

/-- A name needs another one as a directory if it goes on behind it. -/
theorem mem_prefixes {front text : List Char} :
    front ∈ prefixes text ↔
      segments front <+: segments text ∧ front ≠ text := by
  have taken : ∀ count, 0 < count → count ≤ (segments text).length →
      segments (joined ((segments text).take count)) =
        (segments text).take count := by
    intro count positive fits
    apply segments_joined
    · intro empty
      have length := congrArg List.length empty
      rw [List.length_take, List.length_nil] at length
      omega
    · exact fun segment member =>
        segments_clean (List.mem_of_mem_take member)
  simp only [prefixes, List.mem_map, List.mem_range]
  constructor
  · rintro ⟨count, small, rfl⟩
    have same := taken (count + 1) (Nat.succ_pos _) (by omega)
    refine ⟨by rw [same]; exact List.take_prefix _ _, fun equal => ?_⟩
    rw [equal] at same
    have length := congrArg List.length same
    rw [List.length_take] at length
    omega
  · rintro ⟨front', differ⟩
    have length := front'.length_le
    have filled := List.length_pos_of_ne_nil (segments_ne_nil front)
    have take := List.prefix_iff_eq_take.mp front'
    have shorter : (segments front).length ≠ (segments text).length :=
      fun same => differ (segments_inj.mp (front'.eq_of_length same))
    refine ⟨(segments front).length - 1, by omega, ?_⟩
    rw [Nat.sub_add_cancel filled, ← take]
    exact joined_segments front

/-! ## Registering -/

/-- What the index has been told of some names. -/
structure Tells (index : PathIndex) (names : List (List Char)) : Prop where
  explicit : ∀ text, text ∈ index.explicitPaths ↔
    ∃ name ∈ names, withoutTrailingSlash name = text
  files : ∀ text, text ∈ index.filePaths ↔
    ∃ name ∈ names, isDirectory name = false ∧
      withoutTrailingSlash name = text
  required : ∀ text, text ∈ index.requiredDirectoryPaths ↔
    ∃ name ∈ names, text ∈ prefixes (withoutTrailingSlash name)

theorem requireDirectories {fronts : List (List Char)} {index : PathIndex} :
    fronts.foldlM requireDirectory index =
      if fronts.any index.filePaths.contains then .error .pathCollision
      else .ok { index with
        requiredDirectoryPaths :=
          fronts.reverse ++ index.requiredDirectoryPaths } := by
  induction fronts generalizing index with
  | nil => rfl
  | cons front fronts induction =>
      rw [List.foldlM_cons, List.any_cons]
      cases known : index.filePaths.contains front with
      | true =>
          simp only [requireDirectory, known, if_true, Bool.true_or, bind,
            Except.bind]
      | false =>
          simp only [requireDirectory, known, Bool.false_eq_true, if_false,
            bind, Except.bind, induction, Bool.false_or]
          simp

/-- What a name needs of those in front of it. -/
def Fits (names : List (List Char)) (name : List Char) : Prop :=
  withoutTrailingSlash name ≠ [] ∧ ∀ other ∈ names, ¬Clash other name

theorem clash_iff {first second : List Char} :
    Clash first second ↔
      withoutTrailingSlash first = withoutTrailingSlash second ∨
      (isDirectory first = false ∧
        withoutTrailingSlash first ∈
          prefixes (withoutTrailingSlash second)) ∨
      (isDirectory second = false ∧
        withoutTrailingSlash second ∈
          prefixes (withoutTrailingSlash first)) := by
  unfold Clash parts
  rw [segments_inj, mem_prefixes, mem_prefixes]
  constructor
  · rintro (same | ⟨file, front⟩ | ⟨file, back⟩)
    · exact .inl same
    · by_cases same : withoutTrailingSlash first = withoutTrailingSlash second
      · exact .inl same
      · exact .inr (.inl ⟨file, front, same⟩)
    · by_cases same : withoutTrailingSlash first = withoutTrailingSlash second
      · exact .inl same
      · exact .inr (.inr ⟨file, back, Ne.symm same⟩)
  · rintro (same | ⟨file, front, _⟩ | ⟨file, back, _⟩)
    · exact .inl same
    · exact .inr (.inl ⟨file, front⟩)
    · exact .inr (.inr ⟨file, back⟩)

theorem registerPath_eq (name : List Char) (index : PathIndex) :
    registerPath name (isDirectory name) index =
      if withoutTrailingSlash name = [] ∨
          (∃ front ∈ prefixes (withoutTrailingSlash name),
            front ∈ index.filePaths) ∨
          withoutTrailingSlash name ∈ index.explicitPaths ∨
          (isDirectory name = false ∧
            withoutTrailingSlash name ∈
              (prefixes (withoutTrailingSlash name)).reverse ++
                index.requiredDirectoryPaths) then
        .error .pathCollision
      else .ok
        { explicitPaths := withoutTrailingSlash name :: index.explicitPaths
          filePaths :=
            if isDirectory name then index.filePaths
            else withoutTrailingSlash name :: index.filePaths
          requiredDirectoryPaths :=
            (prefixes (withoutTrailingSlash name)).reverse ++
              index.requiredDirectoryPaths } := by
  have text : (if isDirectory name then name.dropLast else name) =
      withoutTrailingSlash name := rfl
  unfold registerPath
  simp only [text, requireDirectories]
  by_cases empty : withoutTrailingSlash name = []
  · simp [empty]
  · by_cases known : ∃ front ∈ prefixes (withoutTrailingSlash name),
        front ∈ index.filePaths
    · have any : (prefixes (withoutTrailingSlash name)).any
          index.filePaths.contains = true := by
        simpa using known
      simp only [List.isEmpty_iff, empty, if_false, any, if_true, bind,
        Except.bind]
      exact (if_pos (.inr (.inl known))).symm
    · have any : (prefixes (withoutTrailingSlash name)).any
          index.filePaths.contains = false := by
        simpa using known
      rw [any]
      simp only [empty, known, false_or, List.isEmpty_iff, if_false,
        Bool.false_eq_true, bind, Except.bind, List.contains_eq_mem,
        Bool.or_eq_true, Bool.and_eq_true, decide_eq_true_eq,
        Bool.not_eq_true']
      rfl

theorem registerPath_fits {names : List (List Char)} {index : PathIndex}
    (tells : Tells index names) (name : List Char) :
    (Fits names name → ∃ next,
        registerPath name (isDirectory name) index = .ok next ∧
          Tells next (name :: names)) ∧
      ∀ next, registerPath name (isDirectory name) index = .ok next →
        Fits names name := by
  have refuses : (withoutTrailingSlash name = [] ∨
      (∃ front ∈ prefixes (withoutTrailingSlash name),
        front ∈ index.filePaths) ∨
      withoutTrailingSlash name ∈ index.explicitPaths ∨
      (isDirectory name = false ∧ withoutTrailingSlash name ∈
        (prefixes (withoutTrailingSlash name)).reverse ++
          index.requiredDirectoryPaths)) ↔ ¬Fits names name := by
    have own : withoutTrailingSlash name ∉
        prefixes (withoutTrailingSlash name) := fun member =>
      (mem_prefixes.mp member).2 rfl
    simp only [Fits, not_and_or, not_not, not_forall, List.mem_append,
      List.mem_reverse, own, false_or, tells.files, tells.explicit,
      tells.required, exists_prop, clash_iff]
    refine or_congr_right ?_
    constructor
    · rintro (⟨_, front, other, listed, file, rfl⟩ | ⟨other, listed, same⟩ |
        ⟨file, other, listed, back⟩)
      · exact ⟨other, listed, .inr (.inl ⟨file, front⟩)⟩
      · exact ⟨other, listed, .inl same⟩
      · exact ⟨other, listed, .inr (.inr ⟨file, back⟩)⟩
    · rintro ⟨other, listed, same | ⟨file, front⟩ | ⟨file, back⟩⟩
      · exact .inr (.inl ⟨other, listed, same⟩)
      · exact .inl ⟨_, front, other, listed, file, rfl⟩
      · exact .inr (.inr ⟨file, other, listed, back⟩)
  rw [registerPath_eq]
  constructor
  · intro fits
    rw [if_neg (fun refused => refuses.mp refused fits)]
    refine ⟨_, rfl, ?_, ?_, ?_⟩
    · intro text
      simp only [List.mem_cons, tells.explicit, exists_eq_or_imp]
      exact or_congr_left eq_comm
    · intro text
      simp only [List.mem_cons, exists_eq_or_imp]
      cases isDirectory name with
      | true => simp [tells.files]
      | false =>
          simp only [Bool.false_eq_true, if_false, List.mem_cons, tells.files,
            true_and]
          exact or_congr_left eq_comm
    · intro text
      simp [tells.required]
  · intro next accepted
    split at accepted
    · cases accepted
    · rename_i passed
      exact not_not.mp (refuses.not.mp passed)

/-! ## The whole scan -/

/-- What an entry needs apart from the other names. -/
def Proper (entry : Entry) : Prop :=
  isUnsafe entry.name = false ∧ withoutTrailingSlash entry.name ≠ [] ∧
    entryIsSymlink entry = false ∧
    (entry.fileName = DEFAULT_BUNDLE_ENTRY →
      entry.uncompressedSize ≤ BUNDLE_SIZE_MAX)

def totalSize : List Entry → Nat
  | [] => 0
  | entry :: rest => entry.uncompressedSize + totalSize rest

theorem totalSize_perm {entries others : List Entry}
    (same : entries.Perm others) : totalSize entries = totalSize others := by
  induction same with
  | nil => rfl
  | cons entry _ induction =>
      exact congrArg (entry.uncompressedSize + ·) induction
  | swap first second rest =>
      simp only [totalSize]
      omega
  | trans _ _ first second => exact first.trans second

theorem scanEntry_accepts {scan : Scan} {names : List (List Char)}
    (tells : Tells scan.index names) (entry : Entry) :
    (Proper entry ∧ Fits names entry.name ∧
      scan.totalUncompressed + entry.uncompressedSize ≤ MOEXT_TOTAL_MAX →
        ∃ next, scanEntry scan entry = .ok next ∧
          Tells next.index (entry.name :: names) ∧
          next.totalUncompressed =
            scan.totalUncompressed + entry.uncompressedSize) ∧
      ∀ next, scanEntry scan entry = .ok next →
        Proper entry ∧ Fits names entry.name ∧
          scan.totalUncompressed + entry.uncompressedSize ≤
            MOEXT_TOTAL_MAX := by
  obtain ⟨registers, fits⟩ := registerPath_fits tells entry.name
  constructor
  · rintro ⟨⟨safe, filled, plain, bundle⟩, apart, small⟩
    obtain ⟨index, registered, told⟩ := registers apart
    have fitting : ¬(entry.fileName = DEFAULT_BUNDLE_ENTRY ∧
        entry.uncompressedSize > BUNDLE_SIZE_MAX) := fun large =>
      Nat.not_lt.mpr (bundle large.1) large.2
    refine ⟨⟨index, scan.totalUncompressed + entry.uncompressedSize,
      scan.hasManifest ||
        entry.fileName == MANIFEST_ENTRY && !isDirectory entry.name,
      scan.hasDefaultBundle ||
        entry.fileName == DEFAULT_BUNDLE_ENTRY && !isDirectory entry.name⟩,
      ?_, told, rfl⟩
    simp only [scanEntry, assertSafeEntryName, safe, Bool.false_eq_true,
      if_false, registered, plain, Nat.not_lt.mpr small, gt_iff_lt,
      bind, Except.bind]
    exact if_neg fitting
  · intro next accepted
    simp only [scanEntry, assertSafeEntryName, bind, Except.bind] at accepted
    cases safe : isUnsafe entry.name with
    | true => simp [safe] at accepted
    | false =>
        simp only [safe, Bool.false_eq_true, if_false] at accepted
        cases registered :
            registerPath entry.name (isDirectory entry.name) scan.index with
        | error problem =>
            rw [registered] at accepted
            cases accepted
        | ok index =>
            have apart := fits index registered
            simp only [registered] at accepted
            split at accepted
            · cases accepted
            · rename_i plain
              split at accepted
              · cases accepted
              · rename_i small
                split at accepted
                · cases accepted
                · rename_i bundle
                  refine ⟨⟨safe, apart.1, by simpa using plain, ?_⟩, apart,
                    Nat.not_lt.mp small⟩
                  exact fun same => Nat.not_lt.mp fun large =>
                    bundle ⟨same, large⟩

/-- The scan accepts a list if every entry is proper and no two names clash. -/
theorem scan_accepts_from {entries : List Entry} {scan : Scan}
    {names : List (List Char)} (tells : Tells scan.index names)
    (small : scan.totalUncompressed ≤ MOEXT_TOTAL_MAX) :
    (∃ last, entries.foldlM scanEntry scan = .ok last) ↔
      (∀ entry ∈ entries, Proper entry) ∧
      (∀ entry ∈ entries, ∀ name ∈ names, ¬Clash name entry.name) ∧
      entries.Pairwise (fun first second =>
        ¬Clash first.name second.name) ∧
      scan.totalUncompressed + totalSize entries ≤ MOEXT_TOTAL_MAX := by
  induction entries generalizing scan names with
  | nil => simp [totalSize, small, pure, Except.pure]
  | cons entry rest induction =>
      obtain ⟨accepts, refuses⟩ := scanEntry_accepts tells entry
      rw [List.foldlM_cons]
      constructor
      · rintro ⟨last, accepted⟩
        cases first : scanEntry scan entry with
        | error problem =>
            rw [first] at accepted
            cases accepted
        | ok next =>
            obtain ⟨proper, fits, fitting⟩ := refuses next first
            obtain ⟨next', first', told, total⟩ :=
              accepts ⟨proper, fits, fitting⟩
            cases first.symm.trans first'
            rw [first] at accepted
            obtain ⟨properRest, apart, pairs, size⟩ :=
              (induction told (total ▸ fitting)).mp ⟨last, accepted⟩
            refine ⟨?_, ?_, ?_, ?_⟩
            · exact List.forall_mem_cons.mpr ⟨proper, properRest⟩
            · refine List.forall_mem_cons.mpr ⟨fits.2, ?_⟩
              exact fun other among name listed =>
                apart other among name (List.mem_cons_of_mem _ listed)
            · refine List.pairwise_cons.mpr ⟨fun other among => ?_, pairs⟩
              exact apart other among _ List.mem_cons_self
            · rw [totalSize]
              omega
      · rintro ⟨proper, apart, pairs, size⟩
        rw [totalSize] at size
        obtain ⟨proper', properRest⟩ := List.forall_mem_cons.mp proper
        obtain ⟨apart', apartRest⟩ := List.forall_mem_cons.mp apart
        obtain ⟨clear, pairsRest⟩ := List.pairwise_cons.mp pairs
        obtain ⟨next, first, told, total⟩ :=
          accepts ⟨proper', ⟨proper'.2.1, apart'⟩, by omega⟩
        have later := (induction told (by omega)).mpr ⟨properRest,
          fun other among => List.forall_mem_cons.mpr
            ⟨clear other among, apartRest other among⟩,
          pairsRest, by omega⟩
        rw [first]
        exact later

theorem scan_accepts (entries : List Entry) :
    (∃ scan, scanMoextEntries entries = .ok scan) ↔
      (∀ entry ∈ entries, Proper entry) ∧
      entries.Pairwise (fun first second =>
        ¬Clash first.name second.name) ∧
      totalSize entries ≤ MOEXT_TOTAL_MAX := by
  have tells : Tells ⟨[], [], []⟩ [] := ⟨by simp, by simp, by simp⟩
  unfold scanMoextEntries
  rw [scan_accepts_from tells (Nat.zero_le _), Nat.zero_add]
  simp

theorem scan_perm {entries others : List Entry}
    (same : entries.Perm others) :
    (∃ scan, scanMoextEntries entries = .ok scan) ↔
      ∃ scan, scanMoextEntries others = .ok scan := by
  rw [scan_accepts, scan_accepts, totalSize_perm same]
  refine and_congr ?_ (and_congr_left' ?_)
  · exact forall_congr' fun entry => imp_congr_left same.mem_iff
  · exact same.pairwise_iff fun apart clash => apart clash.symm

end Motrix.Moext
