import Motrix.Finalize.PortableName
import Motrix.Finalize.FileName

/-!
# The names that the sidecar publishes

The sidecar's rules are lawful under every upper-case mapping that maps a
character to at least one character and a dot, a space and an underscore to
themselves.
-/

namespace Motrix.Finalize.Sanitize

open Lib FileName

/-- `char::to_uppercase`, as far as device names depend on it. -/
structure UpperCase where
  map : Char → List Char
  nonempty : ∀ character, map character ≠ []
  dot : map '.' = ['.']
  space : map ' ' = [' ']
  underscore : map '_' = ['_']

def asciiUpperCase : UpperCase where
  map character := [character.toUpper]
  nonempty _ := List.cons_ne_nil _ _
  dot := rfl
  space := rfl
  underscore := rfl

def deviceNames : List (List Char) :=
  ["CON", "PRN", "AUX", "NUL", "CONIN$", "CONOUT$"].map String.toList ++
    ["COM", "LPT"].flatMap fun port =>
      ["1", "2", "3", "4", "5", "6", "7", "8", "9", "¹", "²", "³"].map
        fun digit => port.toList ++ digit.toList

section Reserved

variable {toUppercase : Char → List Char} {device : List Char}

theorem strippedOf_append {start text rest : List Char}
    (stripped : strippedOf start text = some rest) : text = start ++ rest := by
  unfold strippedOf at stripped
  split at stripped
  · rename_i begins
    obtain ⟨back, rfl⟩ := List.isPrefixOf_iff_prefix.mp begins
    rw [List.drop_left] at stripped
    rw [Option.some_inj.mp stripped]
  · cases stripped

/-- A reserved stem spells one of the device names. -/
theorem isReservedStem_mem (reserved : isReservedStem toUppercase device) :
    device.flatMap toUppercase ∈ deviceNames := by
  unfold isReservedStem at reserved
  dsimp only at reserved
  generalize device.flatMap toUppercase = upper at *
  unfold deviceNames
  rw [List.mem_append]
  split at reserved
  · rename_i named
    obtain ⟨name, listed, same⟩ := List.any_eq_true.mp named
    left
    rw [eq_of_beq same]
    exact List.mem_map_of_mem listed
  · right
    split at reserved
    · cases reserved
    · rename_i port found
      obtain ⟨digit, listed, same⟩ := List.any_eq_true.mp reserved
      rw [eq_of_beq same] at found
      rw [Option.or_eq_some_iff] at found
      rw [List.mem_flatMap]
      rcases found with com | ⟨-, lpt⟩
      · exact ⟨"COM", List.mem_cons_self,
          List.mem_map.mpr ⟨digit, listed, (strippedOf_append com).symm⟩⟩
      · exact ⟨"LPT", List.mem_cons_of_mem _ List.mem_cons_self,
          List.mem_map.mpr ⟨digit, listed, (strippedOf_append lpt).symm⟩⟩

theorem deviceNames_plain : ∀ name ∈ deviceNames,
    0 < name.length ∧ name.length ≤ 7 ∧ '.' ∉ name ∧ ' ' ∉ name ∧
      '_' ∉ name := by
  decide

theorem length_le_flatMap (nonempty : ∀ character, toUppercase character ≠ [])
    (name : List Char) : name.length ≤ (name.flatMap toUppercase).length := by
  induction name with
  | nil => exact Nat.le_refl _
  | cons head rest induction =>
      have one := List.length_pos_iff.mpr (nonempty head)
      rw [List.flatMap_cons, List.length_append, List.length_cons]
      omega

theorem bytes_le (name : List Char) : bytes name ≤ 4 * name.length := by
  induction name with
  | nil => exact Nat.le_refl _
  | cons head rest induction =>
      have width := Char.utf8Size_le_four head
      rw [bytes_cons, List.length_cons]
      omega

end Reserved

theorem UpperCase.lawful (upperCase : UpperCase) :
    (rules upperCase.map).Lawful := by
  have spelled : ∀ device, (rules upperCase.map).reserved device = true →
      device.flatMap upperCase.map ∈ deviceNames :=
    fun device reserved => isReservedStem_mem reserved
  have short : ∀ device, (rules upperCase.map).reserved device = true →
      device.length ≤ 7 := fun device reserved =>
    Nat.le_trans (length_le_flatMap upperCase.nonempty device)
      (deviceNames_plain _ (spelled device reserved)).2.1
  have apart : ∀ device, (rules upperCase.map).reserved device = true →
      ∀ character ∈ device, upperCase.map character = [character] →
        character ∈ device.flatMap upperCase.map := by
    intro device _ character inside same
    apply List.mem_flatMap.mpr
    refine ⟨character, inside, ?_⟩
    rw [same]
    exact List.mem_cons_self
  constructor
  · rfl
  · constructor
    · decide
    · decide
    · show ∀ character ∈ "download".toList,
        isForbiddenCharacter character = false
      exact fun character inside => by
        simpa using List.all_eq_true.mp
          (by decide : "download".toList.all
            (! isForbiddenCharacter ·) = true) character inside
    · intro last newest
      cases newest
      rfl
    · rw [← Bool.not_eq_true]
      intro reserved
      exact absurd (short _ reserved) (by decide)
  · rw [← Bool.not_eq_true]
    intro reserved
    exact absurd (deviceNames_plain _ (spelled _ reserved)).1
      (Nat.lt_irrefl 0)
  · intro device reserved
    have few := short device reserved
    have most := bytes_le device
    omega
  · intro device reserved character inside
    obtain ⟨-, -, dot, space, underscore⟩ :=
      deviceNames_plain _ (spelled device reserved)
    have kept := apart device reserved character inside
    constructor
    · rw [← Bool.not_eq_true]
      intro drops
      have kinds : character = '.' ∨ character = ' ' := by
        simpa [dropped] using drops
      rcases kinds with rfl | rfl
      · exact dot (kept upperCase.dot)
      · exact space (kept upperCase.space)
    · rintro rfl
      exact underscore (kept upperCase.underscore)

/-- The sanitizer returns a portable name and leaves that name alone. -/
def Settles (toUppercase : Char → List Char) (component : List Char) : Prop :=
  ∃ name, sanitizeFilename toUppercase component = some name ∧
    (rules toUppercase).Portable name ∧
      sanitizeFilename toUppercase name = some name

theorem sanitizeFilename_settles_iff (upperCase : UpperCase)
    (component : List Char) :
    Settles upperCase.map component ↔
      ¬(rules upperCase.map).Padded
        (trimEndMatches ((rules upperCase.map).legalized component)) := by
  have lawful := upperCase.lawful
  rw [trimEndMatches_eq, ← lawful.portable_iff component]
  unfold Settles
  constructor
  · rintro ⟨name, gives, portable, -⟩
    rw [sanitizeFilename_eq, Option.some_inj] at gives
    rw [gives]
    exact portable
  · intro portable
    refine ⟨_, sanitizeFilename_eq _ _, portable, ?_⟩
    rw [sanitizeFilename_eq, lawful.published_portable portable]

/-- A device name, more spaces than fit into the budget, and a letter. -/
def paddedName : List Char :=
  "CON".toList ++ List.replicate 252 ' ' ++ ['x']

theorem paddedName_unsettled :
    sanitizeFilename asciiUpperCase.map paddedName = some "CON".toList ∧
      sanitizeFilename asciiUpperCase.map "CON".toList =
        some "CON_".toList ∧
      ¬Settles asciiUpperCase.map paddedName := by
  have once : sanitizeFilename asciiUpperCase.map paddedName =
      some "CON".toList := by
    decide +kernel
  have twice : sanitizeFilename asciiUpperCase.map "CON".toList =
      some "CON_".toList := by
    decide +kernel
  refine ⟨once, twice, ?_⟩
  rintro ⟨name, gives, -, again⟩
  rw [once, Option.some_inj] at gives
  rw [← gives, twice] at again
  exact absurd again (by decide)

end Motrix.Finalize.Sanitize
