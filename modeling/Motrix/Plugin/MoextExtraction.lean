import Mathlib.Data.List.Infix
import Motrix.Plugin.MoextEntries

/-!
# Unpacking a package

An accepted package is unpacked entry by entry: names are resolved against the
destination, directories are made with their parents, and a file is created
only where nothing is.
-/

namespace Motrix.Moext

/-! ## Targets -/

def applySegment (path : Path) (segment : List Char) : Path :=
  if segment = [] ∨ segment = ['.'] then path
  else if segment = ['.', '.'] then path.dropLast
  else path ++ [segment]

/-- `path.resolve`, of a normal absolute directory. -/
def resolve (destDir : Path) (name : List Char) : Path :=
  (segments name).foldl applySegment
    (if name.head? = some '/' then [] else destDir)

/-- What is asked of the targets: no name is listed twice, all targets are
inside the destination, and the target of a file is neither the target of
another entry nor above it. -/
def TargetsFit (destDir : Path) (names : List (List Char)) : Prop :=
  names.Nodup ∧
    (∀ name ∈ names,
      destDir <+: resolve destDir name ∧ resolve destDir name ≠ destDir) ∧
    names.Pairwise fun first second =>
      (isDirectory first = false →
        ¬resolve destDir first <+: resolve destDir second) ∧
      (isDirectory second = false →
        ¬resolve destDir second <+: resolve destDir first)

/-- A name without a backslash, none of whose segments, up to the trailing
slash, is empty or made of dots. -/
def Plain (name : List Char) : Prop :=
  '\\' ∉ name ∧ ∀ segment ∈ parts name,
    segment ≠ [] ∧ segment ≠ ['.'] ∧ segment ≠ ['.', '.']

theorem isDirectory_eq {name : List Char}
    (directory : isDirectory name = true) :
    name = withoutTrailingSlash name ++ ['/'] := by
  have last : name.getLast? = some '/' := beq_iff_eq.mp directory
  unfold withoutTrailingSlash
  rw [if_pos directory]
  exact (List.dropLast_append_getLast? '/' last).symm

/-- The segments of a name, with the empty one behind a trailing slash. -/
theorem segments_name (name : List Char) :
    segments name = parts name ++ if isDirectory name then [[]] else [] := by
  cases directory : isDirectory name with
  | true =>
      have split := isDirectory_eq directory
      conv => lhs; rw [split]
      unfold parts segments
      rw [List.splitOn_append_cons_self, List.splitOn_nil]
      rfl
  | false => simp [parts, withoutTrailingSlash, directory]

theorem foldl_applySegment {path : Path} {plain : Path}
    (named : ∀ segment ∈ plain,
      segment ≠ [] ∧ segment ≠ ['.'] ∧ segment ≠ ['.', '.']) :
    plain.foldl applySegment path = path ++ plain := by
  induction plain generalizing path with
  | nil => exact (List.append_nil path).symm
  | cons segment plain induction =>
      obtain ⟨⟨filled, single, double⟩, later⟩ := List.forall_mem_cons.mp named
      rw [List.foldl_cons, induction later]
      simp [applySegment, filled, single, double]

theorem Plain.filled {name : List Char} (plain : Plain name) :
    withoutTrailingSlash name ≠ [] := by
  intro empty
  have single : [] ∈ parts name := by
    rw [parts, empty]
    exact List.mem_singleton.mpr rfl
  exact (plain.2 [] single).1 rfl

theorem Plain.head {name : List Char} (plain : Plain name) :
    name.head? ≠ some '/' := by
  intro slash
  have front : (withoutTrailingSlash name).head? = some '/' := by
    have filled := plain.filled
    unfold withoutTrailingSlash at filled ⊢
    split
    · rename_i directory
      rw [if_pos directory] at filled
      rw [List.head?_dropLast, if_pos (by
        rw [← List.length_pos_iff, List.length_dropLast] at filled
        omega)]
      exact slash
    · exact slash
  obtain ⟨rest, split⟩ := List.head?_eq_some_iff.mp front
  have empty : [] ∈ parts name := by
    have cut := List.splitOn_append_cons_self [] rest (a := '/')
    rw [List.nil_append] at cut
    rw [parts, split, segments, cut]
    exact List.mem_append_left _ (List.mem_singleton.mpr rfl)
  exact (plain.2 [] empty).1 rfl

theorem Plain.safe {name : List Char} (plain : Plain name) :
    isUnsafe name = false := by
  have dots : ['.', '.'] ∉ segments name := by
    rw [segments_name]
    intro member
    rcases List.mem_append.mp member with inside | outside
    · exact (plain.2 _ inside).2.2 rfl
    · split at outside
      · cases List.mem_singleton.mp outside
      · cases outside
  have head := plain.head
  simp [isUnsafe, dots, head, plain.1]

theorem Plain.resolve {name : List Char} (plain : Plain name)
    (destDir : Path) :
    Moext.resolve destDir name = destDir ++ parts name := by
  unfold Moext.resolve
  rw [if_neg plain.head, segments_name, List.foldl_append,
    foldl_applySegment plain.2]
  split <;> simp [applySegment]

theorem plain_fits_iff {first second : List Char} (one : Plain first)
    (two : Plain second) (destDir : Path) :
    (first ≠ second ∧
      (isDirectory first = false →
        ¬resolve destDir first <+: resolve destDir second) ∧
      (isDirectory second = false →
        ¬resolve destDir second <+: resolve destDir first)) ↔
      ¬Clash first second := by
  rw [one.resolve, two.resolve, List.prefix_append_right_inj,
    List.prefix_append_right_inj]
  constructor
  · rintro ⟨differ, front, back⟩ (same | ⟨file, begins⟩ | ⟨file, begins⟩)
    · cases kind : isDirectory first with
      | false => exact front kind (same ▸ List.prefix_refl _)
      | true =>
          cases kind' : isDirectory second with
          | false => exact back kind' (same ▸ List.prefix_refl _)
          | true =>
              apply differ
              rw [isDirectory_eq kind, isDirectory_eq kind',
                segments_inj.mp same]
    · exact front file begins
    · exact back file begins
  · intro apart
    refine ⟨?_, fun file begins => apart (.inr (.inl ⟨file, begins⟩)),
      fun file begins => apart (.inr (.inr ⟨file, begins⟩))⟩
    rintro rfl
    exact apart (.inl rfl)

theorem targetsFit_iff {names : List (List Char)}
    (plain : ∀ name ∈ names, Plain name) (destDir : Path) :
    TargetsFit destDir names ↔
      names.Pairwise fun first second => ¬Clash first second := by
  have inside : ∀ name ∈ names,
      destDir <+: resolve destDir name ∧ resolve destDir name ≠ destDir := by
    intro name member
    rw [(plain name member).resolve]
    refine ⟨List.prefix_append _ _, fun same => ?_⟩
    exact segments_ne_nil _ (List.append_right_eq_self.mp same)
  unfold TargetsFit List.Nodup
  rw [and_iff_right inside, ← List.pairwise_and_iff]
  constructor
  · exact List.Pairwise.imp_of_mem fun first second fits =>
      (plain_fits_iff (plain _ first) (plain _ second) destDir).mp fits
  · exact List.Pairwise.imp_of_mem fun first second apart =>
      (plain_fits_iff (plain _ first) (plain _ second) destDir).mpr apart

/-! ## Unpacking -/

structure Disk where
  files : List Path
  dirs : List Path

inductive ExtractError where
  | refused (error : MoextError)
  | notDirectory
  deriving DecidableEq

/-- `mkdir` with all parents; what is there already may be a directory. -/
def mkdirRecursive (disk : Disk) (path : Path) : Except ExtractError Disk :=
  if path.inits.any disk.files.contains then .error .notDirectory
  else .ok { disk with dirs := disk.dirs ++ path.inits }

/-- A write stream that never overwrites. -/
def createExclusive (disk : Disk) (path : Path) : Except ExtractError Disk :=
  if disk.files.contains path || disk.dirs.contains path then
    .error (.refused .pathCollision)
  else .ok { disk with files := disk.files ++ [path] }

/-- The target is the destination or behind its text and a separator, which
nothing is where the destination is the root. -/
def isInside (destDir target : Path) : Bool :=
  target == destDir || !destDir.isEmpty && destDir.isPrefixOf target

def extractEntry (destDir : Path) (disk : Disk) (name : List Char) :
    Except ExtractError Disk :=
  let target := resolve destDir name
  if isUnsafe name || !isInside destDir target then
    .error (.refused .zipSlip)
  else if isDirectory name then mkdirRecursive disk target
  else do
    let made ← mkdirRecursive disk target.dropLast
    createExclusive made target

def extract (destDir : Path) (disk : Disk) (names : List (List Char)) :
    Except ExtractError Disk :=
  names.foldlM (extractEntry destDir) disk

/-- Nothing is below the destination, and no file is on the way to it. -/
structure Empty (destDir : Path) (disk : Disk) : Prop where
  files : ∀ file ∈ disk.files, ¬file <+: destDir ∧ ¬destDir <+: file
  dirs : ∀ dir ∈ disk.dirs, destDir <+: dir → dir = destDir

/-- The disk once some names have been unpacked. -/
structure Unpacked (destDir : Path) (start disk : Disk)
    (names : List (List Char)) : Prop where
  files : ∀ file ∈ disk.files, file ∈ start.files ∨
    ∃ name ∈ names, isDirectory name = false ∧ file = destDir ++ parts name
  dirs : ∀ dir ∈ disk.dirs, dir ∈ start.dirs ∨
    ∃ name ∈ names, dir <+: destDir ++ parts name ∧
      (isDirectory name = false → dir ≠ destDir ++ parts name)

variable {destDir : Path} {start disk : Disk} {names : List (List Char)}
  {name : List Char}

theorem mkdirRecursive_free {path : Path}
    (free : ∀ file ∈ disk.files, ¬file <+: path) :
    mkdirRecursive disk path =
      .ok { disk with dirs := disk.dirs ++ path.inits } := by
  refine if_neg fun met => ?_
  obtain ⟨file, front, known⟩ := List.any_eq_true.mp met
  exact free file (by simpa using known) ((List.mem_inits _ _).mp front)

/-- What was unpacked stands in the way of no entry that does not clash. -/
theorem free_of_apart (empty : Empty destDir start)
    (unpacked : Unpacked destDir start disk names)
    (apart : ∀ other ∈ names, ¬Clash other name) :
    ∀ file ∈ disk.files, ¬file <+: destDir ++ parts name := by
  intro file member front
  rcases unpacked.files file member with old | ⟨other, listed, isFile, rfl⟩
  · obtain ⟨above, below⟩ := empty.files file old
    rcases List.prefix_or_prefix_of_prefix front
      (List.prefix_append destDir (parts name)) with up | down
    · exact above up
    · exact below down
  · rw [List.prefix_append_right_inj] at front
    exact apart other listed (.inr (.inl ⟨isFile, front⟩))

theorem extractEntry_unpacks (named : destDir ≠ [])
    (empty : Empty destDir start)
    (unpacked : Unpacked destDir start disk names) (plain : Plain name)
    (apart : ∀ other ∈ names, ¬Clash other name) :
    ∃ next, extractEntry destDir disk name = .ok next ∧
      Unpacked destDir start next (name :: names) := by
  have free := free_of_apart empty unpacked apart
  have inside : isInside destDir (destDir ++ parts name) = true := by
    simp [isInside, named]
  unfold extractEntry
  simp only [plain.resolve, plain.safe, inside, Bool.not_true, Bool.or_false,
    Bool.false_eq_true, if_false]
  cases kind : isDirectory name with
  | true =>
      refine ⟨_, mkdirRecursive_free free, ?_, ?_⟩
      · intro file member
        exact (unpacked.files file member).imp_right
          fun ⟨other, listed, rest⟩ =>
            ⟨other, List.mem_cons_of_mem _ listed, rest⟩
      · intro dir member
        rcases List.mem_append.mp member with old | new
        · exact (unpacked.dirs dir old).imp_right
            fun ⟨other, listed, rest⟩ =>
              ⟨other, List.mem_cons_of_mem _ listed, rest⟩
        · refine .inr ⟨name, List.mem_cons_self,
            (List.mem_inits _ _).mp new, fun file => ?_⟩
          rw [kind] at file
          cases file
  | false =>
      have filled : destDir ++ parts name ≠ [] := by simp [named]
      have shorter : ∀ dir : Path, dir <+: (destDir ++ parts name).dropLast →
          dir <+: destDir ++ parts name ∧ dir ≠ destDir ++ parts name := by
        intro dir front
        refine ⟨front.trans (List.dropLast_prefix _), fun same => ?_⟩
        have length := front.length_le
        have positive := List.length_pos_of_ne_nil filled
        rw [List.length_dropLast, same] at length
        omega
      have made := @mkdirRecursive_free disk
        (destDir ++ parts name).dropLast fun file member front =>
          free file member (shorter file front).1
      have newFile : destDir ++ parts name ∉ disk.files := fun member =>
        free _ member (List.prefix_refl _)
      have newDir : destDir ++ parts name ∉
          disk.dirs ++ (destDir ++ parts name).dropLast.inits := by
        intro member
        rcases List.mem_append.mp member with old | new
        · rcases unpacked.dirs _ old with before | ⟨other, listed, front, _⟩
          · have same := empty.dirs _ before (List.prefix_append _ _)
            exact segments_ne_nil _ (List.append_right_eq_self.mp same)
          · rw [List.prefix_append_right_inj] at front
            exact apart other listed (.inr (.inr ⟨kind, front⟩))
        · exact (shorter _ ((List.mem_inits _ _).mp new)).2 rfl
      refine ⟨⟨disk.files ++ [destDir ++ parts name],
        disk.dirs ++ (destDir ++ parts name).dropLast.inits⟩, ?_, ?_, ?_⟩
      · simp only [Bool.false_eq_true, if_false, made, bind, Except.bind,
          createExclusive]
        rw [if_neg (by simpa using ⟨newFile, by simpa using newDir⟩)]
      · intro file member
        rcases List.mem_append.mp member with old | new
        · exact (unpacked.files file old).imp_right
            fun ⟨other, listed, rest⟩ =>
              ⟨other, List.mem_cons_of_mem _ listed, rest⟩
        · exact .inr ⟨name, List.mem_cons_self, kind,
            List.mem_singleton.mp new⟩
      · intro dir member
        rcases List.mem_append.mp member with old | new
        · exact (unpacked.dirs dir old).imp_right
            fun ⟨other, listed, rest⟩ =>
              ⟨other, List.mem_cons_of_mem _ listed, rest⟩
        · obtain ⟨front, differ⟩ := shorter dir ((List.mem_inits _ _).mp new)
          exact .inr ⟨name, List.mem_cons_self, front, fun _ => differ⟩

theorem extract_unpacks (named : destDir ≠ []) (empty : Empty destDir start)
    {rest : List (List Char)}
    (unpacked : Unpacked destDir start disk names)
    (plain : ∀ name ∈ rest, Plain name)
    (pairs : rest.Pairwise fun first second => ¬Clash first second)
    (apart : ∀ name ∈ rest, ∀ other ∈ names, ¬Clash other name) :
    ∃ after, extract destDir disk rest = .ok after := by
  induction rest generalizing disk names with
  | nil => exact ⟨disk, rfl⟩
  | cons name rest induction =>
      obtain ⟨plain', plainRest⟩ := List.forall_mem_cons.mp plain
      obtain ⟨clear, pairsRest⟩ := List.pairwise_cons.mp pairs
      obtain ⟨apart', apartRest⟩ := List.forall_mem_cons.mp apart
      obtain ⟨next, first, told⟩ :=
        extractEntry_unpacks named empty unpacked plain' apart'
      obtain ⟨after, later⟩ := induction told plainRest pairsRest
        fun other among => List.forall_mem_cons.mpr
          ⟨clear other among, apartRest other among⟩
      refine ⟨after, ?_⟩
      unfold extract at later ⊢
      rw [List.foldlM_cons, first]
      exact later

theorem extractEntry_root (plain : Plain name) :
    extractEntry [] disk name = .error (.refused .zipSlip) := by
  have outside : isInside [] (parts name) = false := by
    simp [isInside, parts, segments_ne_nil]
  unfold extractEntry
  simp [plain.resolve, plain.safe, outside]

/-- The scan accepts what is proper and does not clash, in any order.  Without
empty and dot segments these are the lists whose targets fit, and unpacking
them into an empty destination meets nothing on its way. -/
theorem scan_accepts_iff (destDir : Path) (entries : List Entry) :
    ((∃ scan, scanMoextEntries entries = .ok scan) ↔
      (∀ entry ∈ entries, Proper entry) ∧
      entries.Pairwise (fun first second =>
        ¬Clash first.name second.name) ∧
      totalSize entries ≤ MOEXT_TOTAL_MAX) ∧
    (∀ others, entries.Perm others →
      ((∃ scan, scanMoextEntries entries = .ok scan) ↔
        ∃ scan, scanMoextEntries others = .ok scan)) ∧
    ((∀ entry ∈ entries, Plain entry.name) →
      ((∃ scan, scanMoextEntries entries = .ok scan) ↔
        (∀ entry ∈ entries, entryIsSymlink entry = false ∧
          (entry.fileName = DEFAULT_BUNDLE_ENTRY →
            entry.uncompressedSize ≤ BUNDLE_SIZE_MAX)) ∧
        totalSize entries ≤ MOEXT_TOTAL_MAX ∧
        TargetsFit destDir (entries.map Entry.name)) ∧
      ∀ start scan problem, Empty destDir start →
        scanMoextEntries entries = .ok scan →
        extract destDir start (entries.map Entry.name) = .error problem →
          destDir = [] ∧ problem = .refused .zipSlip) := by
  refine ⟨scan_accepts entries, fun others => scan_perm, fun plain => ?_⟩
  have names : ∀ name ∈ entries.map Entry.name, Plain name := by
    intro name member
    obtain ⟨entry, listed, rfl⟩ := List.mem_map.mp member
    exact plain entry listed
  have fits := targetsFit_iff names destDir
  rw [List.pairwise_map] at fits
  constructor
  · rw [scan_accepts, fits]
    constructor
    · rintro ⟨proper, apart, size⟩
      exact ⟨fun entry member => (proper entry member).2.2, size, apart⟩
    · rintro ⟨proper, size, apart⟩
      exact ⟨fun entry member => ⟨(plain entry member).safe,
        (plain entry member).filled, proper entry member⟩, apart, size⟩
  · intro start scan problem empty accepted failed
    obtain ⟨_, apart, _⟩ := (scan_accepts entries).mp ⟨scan, accepted⟩
    by_cases named : destDir = []
    · refine ⟨named, ?_⟩
      subst named
      cases entries with
      | nil => cases failed
      | cons entry rest =>
          have first := @extractEntry_root start entry.name
            (plain entry List.mem_cons_self)
          unfold extract at failed
          rw [List.map_cons, List.foldlM_cons, first] at failed
          cases failed
          rfl
    · obtain ⟨after, unpacked⟩ := extract_unpacks named empty
        (⟨fun _ => .inl, fun _ => .inl⟩ : Unpacked destDir start start [])
        names (List.pairwise_map.mpr apart) (by simp)
      rw [unpacked] at failed
      cases failed

/-- A name with a dot segment is accepted beside the name that it stands for,
and a name that leaves a directory of its own is refused. -/
theorem dotSegments_differ :
    (∃ scan, scanMoextEntries [⟨"./x", 1, 0⟩, ⟨"x", 1, 0⟩] = .ok scan) ∧
      ¬TargetsFit [['d']] ["./x".toList, "x".toList] ∧
      extract [['d']] ⟨[], []⟩ ["./x".toList, "x".toList] =
        .error (.refused .pathCollision) ∧
      scanMoextEntries [⟨"a/../b", 1, 0⟩] = .error .zipSlip ∧
      TargetsFit [['d']] ["a/../b".toList] := by
  refine ⟨⟨_, rfl⟩, ?_, rfl, rfl, ?_⟩ <;>
    unfold TargetsFit <;> decide

end Motrix.Moext
