import Motrix.Finalize.PublishedName

/-!
# The name under which a target is published

A requested name is sanitized and, if that changed it, picked again beside the
files that exist: a counter goes in front of the extension.  The name with the
counter is longer than the sanitized one, and nobody looks at its length again.
-/

namespace Motrix.Finalize.Published

open Lib Lib.Utf16 FinalizePath
open Sanitize (UpperCase asciiUpperCase)

/-! ## Candidates -/

def incompleteSuffix : List UInt16 :=
  units ".motrix"

def maxDedupAttempts : Nat :=
  9999

/-- `path.extname` of a single component. -/
def extname (name : List UInt16) : List UInt16 :=
  match lastIndexOf dot name with
  | none => []
  | some index =>
      if index = 0 ∨ name = [dot, dot] then [] else name.drop index

def isAlphanumeric (unit : UInt16) : Bool :=
  0x30 ≤ unit && unit ≤ 0x39 || 0x41 ≤ unit && unit ≤ 0x5a ||
    0x61 ≤ unit && unit ≤ 0x7a

/-- `/^\.[A-Za-z0-9]{2,8}$/` -/
def isExtension : List UInt16 → Bool
  | [] => false
  | first :: rest =>
      first == dot && 2 ≤ rest.length && rest.length ≤ 8 &&
        rest.all isAlphanumeric

/-- The base and the extension of a name. -/
def splitNameExt (name : List UInt16) : List UInt16 × List UInt16 :=
  if name.head? = some dot ∧ lastIndexOf dot name = some 0 then (name, [])
  else if isExtension (extname name) then
    (name.take (name.length - (extname name).length), extname name)
  else (name, [])

def digits (number : Nat) : List UInt16 :=
  encode (Nat.toDigits 10 number)

def counter (number : Nat) : List UInt16 :=
  units " (" ++ digits number ++ units ")"

def candidate (name : List UInt16) (number : Nat) : List UInt16 :=
  (splitNameExt name).1 ++ counter number ++ (splitNameExt name).2

/-- `FsProbe.exists` of a name in a directory. -/
abbrev FsProbe :=
  List UInt16 → List UInt16 → Bool

def isTaken (exists' : FsProbe) (dir name : List UInt16)
    (adjacentControlFile : Bool) : Bool :=
  exists' dir name || exists' dir (name ++ incompleteSuffix) ||
    adjacentControlFile && exists' dir (name ++ units ".aria2")

/-- Names are compared by their identity on the host. -/
def isReserved (identity : List UInt16 → List UInt16)
    (reservedNames : List (List UInt16)) (name : List UInt16)
    (adjacentControlFile : Bool) : Bool :=
  let reserved := reservedNames.map identity
  reserved.contains (identity name) ||
    reserved.contains (identity (name ++ incompleteSuffix)) ||
    reserved.contains (identity (name ++ incompleteSuffix ++ units ".aria2")) ||
    adjacentControlFile && reserved.contains (identity (name ++ units ".aria2"))

/-- The desired name or the first candidate that is free; none is an error. -/
def pick (exists' : FsProbe) (identity : List UInt16 → List UInt16)
    (saveDir desiredName : List UInt16) (reservedNames : List (List UInt16))
    (adjacentControlFile : Bool) : Option (List UInt16) :=
  let free := fun name =>
    !isReserved identity reservedNames name adjacentControlFile &&
      !isTaken exists' saveDir name adjacentControlFile
  if free desiredName then some desiredName
  else ((List.range' 1 maxDedupAttempts).map (candidate desiredName)).find? free

/-- A path is its directory and its final component. -/
structure TargetPath where
  dir : List UInt16
  name : List UInt16
  deriving DecidableEq

def sanitizeFinalizePath (upperCase : Char → List Char)
    (target : TargetPath) : TargetPath :=
  { target with name := sanitizeFinalizeFilename upperCase target.name }

/-- Without a picker the sanitized path is not looked up. -/
def resolvePublishedTargetPath (upperCase : Char → List Char)
    (exists' : FsProbe) (identity : List UInt16 → List UInt16)
    (picker : Bool) (requested : TargetPath) : Option TargetPath :=
  let sanitized := sanitizeFinalizePath upperCase requested
  if sanitized = requested ∨ picker = false then some sanitized
  else
    (pick exists' identity sanitized.dir sanitized.name [] false).map
      fun name => { sanitized with name := name }

/-! ## What a pick returns -/

/-- Whatever is reserved, a pick returns a name that is free. -/
theorem pick_free {exists' : FsProbe} {identity : List UInt16 → List UInt16}
    {saveDir desiredName picked : List UInt16}
    {reservedNames : List (List UInt16)} {adjacentControlFile : Bool}
    (picks : pick exists' identity saveDir desiredName reservedNames
      adjacentControlFile = some picked) :
    isReserved identity reservedNames picked adjacentControlFile = false ∧
      isTaken exists' saveDir picked adjacentControlFile = false := by
  unfold pick at picks
  dsimp only at picks
  split at picks
  · next free =>
      rw [← Option.some.inj picks]
      simpa using free
  · have free := List.find?_some picks
    simpa using free

theorem splitNameExt_parts (name : List UInt16) :
    (splitNameExt name).1 ++ (splitNameExt name).2 = name ∧
      ((splitNameExt name).2 = [] ∨
        ∃ rest, (splitNameExt name).2 = dot :: rest) := by
  unfold splitNameExt
  split
  · exact ⟨List.append_nil _, Or.inl rfl⟩
  · split
    · next real =>
        constructor
        · unfold extname at real ⊢
          cases found : lastIndexOf dot name with
          | none => simp [found, isExtension] at real
          | some index =>
              simp only [found] at real ⊢
              split
              · simp_all [isExtension]
              · rw [List.length_drop]
                by_cases bound : index ≤ name.length
                · rw [Nat.sub_sub_self bound, List.take_append_drop]
                · have nothing : name.drop index = [] :=
                    List.drop_eq_nil_of_le (by omega)
                  simp_all [isExtension]
        · right
          cases ext : extname name with
          | nil => simp [ext, isExtension] at real
          | cons first rest =>
              have same : first = dot := by
                simp [ext, isExtension] at real
                exact real.1.1.1
              exact ⟨rest, by rw [same]⟩
    · exact ⟨List.append_nil _, Or.inl rfl⟩

/-! ## The length and the stem of a candidate -/

theorem digits_cases (number : Nat) {unit : UInt16}
    (member : unit ∈ digits number) :
    unit ∈ units "0123456789" := by
  obtain ⟨character, inside, among⟩ := List.mem_flatMap.mp member
  have digit : character.isDigit = true :=
    Nat.isDigit_of_mem_toDigits (by decide) (by decide) inside
  have bounds : 48 ≤ character.toNat ∧ character.toNat ≤ 57 := by
    simp only [Char.isDigit, Bool.and_eq_true, decide_eq_true_eq,
      UInt32.le_iff_toNat_le, ge_iff_le] at digit
    exact digit
  rw [encodePoint_small (by omega), List.mem_singleton] at among
  rw [among]
  have every : (List.range' 48 10).all (fun code =>
      (units "0123456789").contains (UInt16.ofNat code)) = true := by
    decide
  have here := List.all_eq_true.mp every character.toNat
    (List.mem_range'_1.mpr ⟨bounds.1, by omega⟩)
  exact List.contains_iff_mem.mp here

/-- The units of a counter are plain. -/
theorem counter_units (number : Nat) {unit : UInt16}
    (member : unit ∈ counter number) :
    unit.toNat < 0x80 ∧ isForbiddenFilenameCharacter [unit] = false ∧
      unit ≠ dot := by
  have inside : unit ∈ units " ()0123456789" := by
    unfold counter at member
    rw [List.mem_append, List.mem_append] at member
    rcases member with (front | among) | back
    · exact List.mem_of_mem_take (i := 2) front
    · exact List.mem_of_mem_drop (i := 3) (digits_cases number among)
    · exact List.mem_of_mem_drop (i := 2)
        (List.mem_of_mem_take (i := 1) back)
  have every : (units " ()0123456789").all (fun unit =>
      decide (unit.toNat < 0x80) && !isForbiddenFilenameCharacter [unit] &&
        unit != dot) = true := by
    decide
  have here := List.all_eq_true.mp every unit inside
  simpa [and_assoc] using here

theorem digits_length (number : Nat) :
    (digits number).length = (Nat.toDigits 10 number).length := by
  apply encode_length_le
  intro character member
  have digit : character.isDigit = true :=
    Nat.isDigit_of_mem_toDigits (by decide) (by decide) member
  simp only [Char.isDigit, Bool.and_eq_true, decide_eq_true_eq,
    UInt32.le_iff_toNat_le, ge_iff_le] at digit
  have bound : character.toNat ≤ 57 := digit.2
  omega

theorem digits_mono {less more : Nat} (order : less ≤ more) :
    (digits less).length ≤ (digits more).length := by
  rw [digits_length, digits_length,
    Nat.length_toDigits_le_iff (by decide) Nat.length_toDigits_pos]
  have bound := (Nat.length_toDigits_le_iff (b := 10) (n := more) (by decide)
    Nat.length_toDigits_pos).mp (Nat.le_refl _)
  omega

/-- A counter adds its digits, a space and two parentheses. -/
theorem candidate_bytes (name : List UInt16) (number : Nat) :
    byteLength (candidate name number) =
      byteLength name + (digits number).length + 3 := by
  have ascii : ∀ unit ∈ counter number, unit.toNat < 0x80 :=
    fun unit member => (counter_units number member).1
  have length : (counter number).length = (digits number).length + 3 := by
    simp [counter, units, encode, encodePoint]
  obtain ⟨parts, none' | ⟨rest, extension⟩⟩ := splitNameExt_parts name
  · rw [none', List.append_nil] at parts
    rw [candidate, none', List.append_nil, byteLength_append_ascii _ _ ascii,
      parts]
    omega
  · rw [extension] at parts
    have whole := congrArg byteLength parts
    rw [byteLength_dot] at whole
    rw [candidate, extension, byteLength_dot, byteLength_append_ascii _ _ ascii]
    omega

section Candidates

variable {upperCase : UpperCase} {name : List UInt16}

theorem candidate_clean (clean : Clean name) {number : Nat}
    (short : byteLength name + (digits number).length + 3 ≤ 254) :
    Clean (candidate name number) := by
  obtain ⟨parts, extension⟩ := splitNameExt_parts name
  constructor
  · simp [candidate, counter, units, encode, encodePoint]
  · intro unit member
    rw [candidate, List.mem_append, List.mem_append] at member
    rcases member with (front | among) | back
    · apply clean.allowed
      rw [← parts]
      exact List.mem_append_left _ front
    · exact (counter_units number among).2.1
    · apply clean.allowed
      rw [← parts]
      exact List.mem_append_right _ back
  · rcases extension with none' | ⟨rest, some'⟩
    · rw [candidate, none', List.append_nil, counter, ← List.append_assoc]
      exact trimEnd_concat _ (by decide)
    · have ends := clean.ends
      rw [← parts, some', ends_append _ (List.cons_ne_nil _ _)] at ends
      rw [candidate, some', ends_append _ (List.cons_ne_nil _ _)]
      exact ends
  · rw [candidate_bytes]
    exact short

/-- A counter behind the first dot leaves the stem as it is. -/
theorem candidate_reserved_iff (number : Nat) :
    isReservedFilenameStem upperCase.map (stemOf (candidate name number)) =
        true ↔
      dot ∈ (splitNameExt name).1 ∧
        isReservedFilenameStem upperCase.map (stemOf name) = true := by
  obtain ⟨parts, extension⟩ := splitNameExt_parts name
  by_cases dotted : dot ∈ (splitNameExt name).1
  · obtain ⟨front, back, same, absent⟩ := List.eq_append_cons_of_mem dotted
    have stem : stemOf (candidate name number) = front := by
      rw [candidate, same, List.append_assoc, List.append_assoc,
        List.cons_append, stemOf_append absent]
    have old : stemOf name = front := by
      rw [← parts, same, List.append_assoc, List.cons_append,
        stemOf_append absent]
    simp [stem, old, dotted]
  · have absent : dot ∉ (splitNameExt name).1 ++ counter number := by
      intro member
      rcases List.mem_append.mp member with inside | among
      · exact dotted inside
      · exact (counter_units number among).2.2 rfl
    have stem : stemOf (candidate name number) =
        (splitNameExt name).1 ++ counter number := by
      rcases extension with none' | ⟨rest, some'⟩
      · rw [candidate, none', List.append_nil, stemOf_absent absent]
      · rw [candidate, some', stemOf_append absent]
    simp only [dotted, false_and, iff_false]
    intro reserved
    rw [stem] at reserved
    apply (reserved_plain reserved).2.2.1
    simp [counter, units, encode, encodePoint, space]

/-- A candidate is a sanitized name where there is room for the counter. -/
theorem candidate_fixed_iff (upperCase : UpperCase)
    {name : List UInt16} (clean : Clean name) (number : Nat) :
    sanitizeFinalizeFilename upperCase.map (candidate name number) =
        candidate name number ↔
      byteLength name + (digits number).length + 3 ≤ 254 ∧
        ¬(dot ∈ (splitNameExt name).1 ∧
          isReservedFilenameStem upperCase.map (stemOf name) = true) := by
  rw [← candidate_reserved_iff number]
  constructor
  · intro fixed
    have bounded := (sanitized_clean upperCase
      (candidate name number)).bounded
    rw [fixed, candidate_bytes] at bounded
    rw [fixed_iff upperCase (candidate_clean clean bounded)] at fixed
    exact ⟨bounded, by simp [fixed]⟩
  · intro holds
    rw [fixed_iff upperCase (candidate_clean clean holds.1)]
    exact Bool.eq_false_iff.mpr holds.2

end Candidates

/-! ## When the published name is sanitized -/

/-- What a published path promises: its name is one that the sanitizer leaves
alone, and a name that was sanitized is not taken. -/
def Publishes (upperCase : Char → List Char) (exists' : FsProbe)
    (identity : List UInt16 → List UInt16) (picker : Bool)
    (requested : TargetPath) : Prop :=
  ∀ published, resolvePublishedTargetPath upperCase exists' identity picker
      requested = some published →
    sanitizeFinalizeFilename upperCase published.name = published.name ∧
      (sanitizeFinalizeFilename upperCase requested.name ≠ requested.name →
        isTaken exists' published.dir published.name false = false)

/-- Room for the counter of a free candidate, or no free candidate at all. -/
def Publishable (upperCase : Char → List Char) (exists' : FsProbe)
    (picker : Bool) (requested : TargetPath) : Prop :=
  let sanitized := sanitizeFinalizeFilename upperCase requested.name
  let taken := fun name => isTaken exists' requested.dir name false
  sanitized = requested.name ∨
    taken sanitized = false ∧ ¬Exposes upperCase requested.name ∨
    picker = true ∧ taken sanitized = true ∧
      ((∀ number ∈ List.range' 1 maxDedupAttempts,
          taken (candidate sanitized number) = true) ∨
        (∃ number ∈ List.range' 1 maxDedupAttempts,
          taken (candidate sanitized number) = false ∧
            byteLength sanitized + (digits number).length + 3 ≤ 254) ∧
          ¬(Exposes upperCase requested.name ∧
            dot ∈ (splitNameExt sanitized).1))

/-- The first free candidate is the shortest one. -/
theorem first_free (free : List UInt16 → Bool) (name : List UInt16) :
    (((List.range' 1 maxDedupAttempts).map (candidate name)).find? free =
        none ↔ ∀ number ∈ List.range' 1 maxDedupAttempts,
          free (candidate name number) = false) ∧
      ∀ picked, ((List.range' 1 maxDedupAttempts).map
          (candidate name)).find? free = some picked →
        ∃ number ∈ List.range' 1 maxDedupAttempts,
          picked = candidate name number ∧ free picked = true ∧
          ∀ other ∈ List.range' 1 maxDedupAttempts,
            free (candidate name other) = true → number ≤ other := by
  constructor
  · rw [List.find?_eq_none]
    constructor
    · intro taken number member
      simpa using taken _ (List.mem_map_of_mem member)
    · intro taken other member
      obtain ⟨number, inside, same⟩ := List.mem_map.mp member
      simp [← same, taken number inside]
  · intro picked found
    obtain ⟨free', front, back, split, taken⟩ :=
      List.find?_eq_some_iff_append.mp found
    obtain ⟨before, after, numbers, mapped, rest⟩ :=
      List.map_eq_append_iff.mp split
    obtain ⟨number, later, same, equal, -⟩ := List.map_eq_cons_iff.mp rest
    refine ⟨number, ?_, equal.symm, free', ?_⟩
    · rw [numbers, same]
      simp
    · intro other member isFree
      have ordered : (List.range' 1 maxDedupAttempts).Pairwise (· < ·) :=
        List.pairwise_lt_range'
      rw [numbers, same] at ordered member
      rcases List.mem_append.mp member with earlier | behind
      · have notFree := taken (candidate name other)
          (mapped ▸ List.mem_map_of_mem earlier)
        simp [isFree] at notFree
      · rcases List.mem_cons.mp behind with rfl | behind
        · exact Nat.le_refl _
        · have tail := (List.pairwise_append.mp ordered).2.1
          exact Nat.le_of_lt (List.rel_of_pairwise_cons tail behind)

theorem isReserved_nil (identity : List UInt16 → List UInt16)
    (name : List UInt16) : isReserved identity [] name false = false := by
  simp [isReserved]

section Resolve

variable {exists' : FsProbe} {dir name : List UInt16}

/-- What a pick beside the existing files promises. -/
theorem pick_publishes_iff (upperCase : UpperCase)
    (identity : List UInt16 → List UInt16) (clean : Clean name)
    (taken : isTaken exists' dir name false = true) :
    (∀ picked, pick exists' identity dir name [] false = some picked →
      sanitizeFinalizeFilename upperCase.map picked = picked) ↔
      (∀ number ∈ List.range' 1 maxDedupAttempts,
        isTaken exists' dir (candidate name number) false = true) ∨
      (∃ number ∈ List.range' 1 maxDedupAttempts,
        isTaken exists' dir (candidate name number) false = false ∧
          byteLength name + (digits number).length + 3 ≤ 254) ∧
        ¬(isReservedFilenameStem upperCase.map (stemOf name) = true ∧
          dot ∈ (splitNameExt name).1) := by
  have fixed := fun number =>
    candidate_fixed_iff upperCase clean number
  obtain ⟨nothing, first⟩ := first_free
    (fun name => !isReserved identity [] name false &&
      !isTaken exists' dir name false) name
  simp only [isReserved_nil, Bool.not_false, Bool.true_and,
    Bool.not_eq_eq_eq_not] at nothing first
  have picks : pick exists' identity dir name [] false =
      ((List.range' 1 maxDedupAttempts).map (candidate name)).find?
        fun name => !isTaken exists' dir name false := by
    simp [pick, isReserved_nil, taken]
  rw [picks]
  constructor
  · intro promises
    cases found : ((List.range' 1 maxDedupAttempts).map
        (candidate name)).find? fun name => !isTaken exists' dir name false with
    | none =>
        left
        simpa using nothing.mp found
    | some picked =>
        right
        obtain ⟨number, member, same, free, -⟩ := first picked found
        have keeps := promises picked found
        rw [same, fixed] at keeps
        refine ⟨⟨number, member, ?_, keeps.1⟩, ?_⟩
        · simpa [same] using free
        · intro wrong
          exact keeps.2 ⟨wrong.2, wrong.1⟩
  · intro room picked found
    obtain ⟨number, member, same, free, least⟩ := first picked found
    rcases room with none' | ⟨⟨other, inside, isFree, short⟩, plain⟩
    · rw [same, none' number member] at free
      simp at free
    · have below := digits_mono (least other inside (by simpa using isFree))
      rw [same, fixed]
      refine ⟨by omega, ?_⟩
      intro wrong
      exact plain ⟨wrong.2, wrong.1⟩

end Resolve

/-- A published path keeps its promise exactly where the name fits behind its
counter and no cut has exposed a device name; a pick is always free. -/
theorem resolvePublishedTargetPath_publishes_iff (upperCase : UpperCase)
    (exists' : FsProbe) (identity : List UInt16 → List UInt16)
    (picker : Bool) (requested : TargetPath) :
    (Publishes upperCase.map exists' identity picker requested ↔
      Publishable upperCase.map exists' picker requested) ∧
    ∀ saveDir desiredName reservedNames adjacentControlFile picked,
      pick exists' identity saveDir desiredName reservedNames
        adjacentControlFile = some picked →
      isReserved identity reservedNames picked adjacentControlFile = false ∧
        isTaken exists' saveDir picked adjacentControlFile = false := by
  refine ⟨?_, fun _ _ _ _ _ => pick_free⟩
  obtain ⟨dir, name⟩ := requested
  obtain ⟨sanitized, sanitizes⟩ : ∃ sanitized,
      sanitizeFinalizeFilename upperCase.map name = sanitized := ⟨_, rfl⟩
  have clean := sanitized_clean upperCase name
  have exposed := sanitized_reserved_iff upperCase name
  rw [sanitizes] at clean exposed
  have fixes : sanitizeFinalizeFilename upperCase.map sanitized = sanitized ↔
      ¬Exposes upperCase.map name := by
    rw [fixed_iff upperCase clean, ← exposed, Bool.not_eq_true]
  simp only [Publishes, Publishable, resolvePublishedTargetPath,
    sanitizeFinalizePath, sanitizes, TargetPath.mk.injEq, true_and]
  by_cases same : sanitized = name
  · subst same
    simp [sanitizes]
  · cases picker with
    | false => simp [same, fixes, and_comm]
    | true =>
        cases taken : isTaken exists' dir sanitized false with
        | false =>
            have picks : pick exists' identity dir sanitized [] false =
                some sanitized := by
              simp [pick, isReserved_nil, taken]
            simp [same, picks, taken, fixes]
        | true =>
            have promise := pick_publishes_iff upperCase identity clean taken
            rw [exposed] at promise
            simp only [same, false_or, Bool.true_eq_false, if_false, or_self,
              false_and, true_and, ← promise]
            constructor
            · intro publishes picked picks
              exact (publishes ⟨dir, picked⟩ (by simp [picks])).1
            · intro promises published resolves
              obtain ⟨picked, picks, rfl⟩ :=
                Option.map_eq_some_iff.mp resolves
              exact ⟨promises picked picks, fun _ => (pick_free picks).2⟩

/-- A name of the greatest length that has to be sanitized, and whose
sanitized form exists. -/
def longTarget : TargetPath where
  dir := units "/d"
  name := units ":" ++ List.replicate 253 0x61

def takenOnce : FsProbe := fun _ name =>
  name == units "_" ++ List.replicate 253 0x61

theorem longTarget_unsanitized :
    ¬(Publishes asciiUpperCase.map takenOnce (fun name => name) true
      longTarget) ∧
    (resolvePublishedTargetPath asciiUpperCase.map takenOnce
        (fun name => name) true longTarget).map
      (fun published => byteLength published.name) = some 258 := by
  have resolves : resolvePublishedTargetPath asciiUpperCase.map takenOnce
      (fun name => name) true longTarget =
        some ⟨units "/d",
          units "_" ++ List.replicate 253 0x61 ++ units " (1)"⟩ := by
    decide +kernel
  constructor
  · intro publishes
    have fixed := (publishes _ resolves).1
    exact absurd fixed (by decide +kernel)
  · rw [resolves]
    decide +kernel

end Motrix.Finalize.Published
