import Mathlib.Data.List.DropRight
import Motrix.Lib.Offset

/-!
# Portable file names

The name under which a download is published has no illegal character, no dot
or space at its end and no reserved stem, and it fits a byte budget.  A short
extension outlives the cut of a name that is too long.
-/

namespace Motrix.Finalize.FileName

open Lib

/-- What a publication domain forbids. -/
structure Rules where
  illegal : Char → Bool
  reserved : List Char → Bool

def bytes (name : List Char) : Nat :=
  Offset.size Char.utf8Size name

/-- A file manager drops these from the end of a name. -/
def dropped (character : Char) : Bool :=
  character == '.' || character == ' '

def settled (name : List Char) : List Char :=
  name.rdropWhile dropped

def Rules.legalized (rules : Rules) (name : List Char) : List Char :=
  name.map fun character =>
    if rules.illegal character then '_' else character

def stem (name : List Char) : List Char :=
  name.takeWhile (· != '.')

def Rules.unreserved (rules : Rules) (name : List Char) : List Char :=
  if rules.reserved (stem name) then
    stem name ++ '_' :: name.dropWhile (· != '.')
  else
    name

/-- The name whose length is still to be bounded. -/
def Rules.prepared (rules : Rules) (name : List Char) : List Char :=
  rules.unreserved (settled (rules.legalized name))

/-- What a cut shortens, the bytes that are left to it, and what follows. -/
structure Cut where
  text : List Char
  budget : Nat
  tail : List Char

/-- An extension of 1 to 24 bytes after a dot that is not in front. -/
def shortExtension (name : List Char) : Option (List Char × List Char) :=
  match Offset.lastOffset (fun _ => 1) '.' name with
  | none => none
  | some dot =>
      if 0 < dot ∧ 0 < bytes (name.drop (dot + 1)) ∧
          bytes (name.drop (dot + 1)) ≤ 24 then
        some (name.take dot, name.drop (dot + 1))
      else
        none

def cut (name : List Char) : Cut :=
  match shortExtension name with
  | some (text, extension) =>
      { text
        budget := 254 - bytes extension - 1
        tail := '.' :: extension }
  | none =>
      { text := name
        budget := 254
        tail := [] }

def Cut.result (cut : Cut) : List Char :=
  settled (Offset.fit Char.utf8Size cut.budget cut.text) ++ cut.tail

def clamped (name : List Char) : List Char :=
  if bytes name ≤ 254 then name else (cut name).result

def Rules.published (rules : Rules) (name : List Char) : List Char :=
  if (clamped (rules.prepared name)).isEmpty then
    "download".toList
  else
    clamped (rules.prepared name)

section Dots

theorem stem_append {front : List Char} (absent : '.' ∉ front)
    (back : List Char) : stem (front ++ '.' :: back) = front := by
  have plain : ∀ character ∈ front, (character != '.') = true := by
    intro character member
    exact bne_iff_ne.mpr fun same => absent (same ▸ member)
  rw [stem, List.takeWhile_append_of_pos plain, List.takeWhile_cons]
  exact List.append_nil front

theorem dropWhile_append {front : List Char} (absent : '.' ∉ front)
    (back : List Char) :
    (front ++ '.' :: back).dropWhile (· != '.') = '.' :: back := by
  have plain : ∀ character ∈ front, (character != '.') = true := by
    intro character member
    exact bne_iff_ne.mpr fun same => absent (same ▸ member)
  rw [List.dropWhile_append_of_pos plain]
  rfl

theorem stem_of_absent {name : List Char} (absent : '.' ∉ name) :
    stem name = name := by
  apply List.takeWhile_eq_self_iff.mpr
  intro character member
  exact bne_iff_ne.mpr fun same => absent (same ▸ member)

theorem dropWhile_of_absent {name : List Char} (absent : '.' ∉ name) :
    name.dropWhile (· != '.') = [] := by
  apply List.dropWhile_eq_nil_iff.mpr
  intro character member
  exact bne_iff_ne.mpr fun same => absent (same ▸ member)

theorem shortExtension_of_absent {name : List Char} (absent : '.' ∉ name) :
    shortExtension name = none := by
  rw [shortExtension, Offset.lastOffset_none _ absent]

theorem shortExtension_append (front : List Char) {back : List Char}
    (absent : '.' ∉ back) :
    shortExtension (front ++ '.' :: back) =
      if 0 < front.length ∧ 0 < bytes back ∧ bytes back ≤ 24 then
        some (front, back)
      else
        none := by
  have after : (front ++ '.' :: back).drop (front.length + 1) = back := by
    rw [List.drop_append]
    simp
  have before : (front ++ '.' :: back).take front.length = front :=
    List.take_left
  rw [shortExtension, Offset.lastOffset_append _ front absent]
  simp only [Offset.size_one, after, before]

end Dots

theorem cut_of_absent {name : List Char} (absent : '.' ∉ name) :
    cut name = { text := name, budget := 254, tail := [] } := by
  rw [cut, shortExtension_of_absent absent]

theorem cut_append (front : List Char) {back : List Char}
    (absent : '.' ∉ back) :
    cut (front ++ '.' :: back) =
      if 0 < front.length ∧ 0 < bytes back ∧ bytes back ≤ 24 then
        { text := front
          budget := 254 - bytes back - 1
          tail := '.' :: back }
      else
        { text := front ++ '.' :: back
          budget := 254
          tail := [] } := by
  rw [cut, shortExtension_append front absent]
  split_ifs
  · rfl
  · rfl

/-- What follows a cut starts with a dot. -/
theorem cut_tail (name : List Char) :
    (cut name).tail = [] ∨ ∃ extension, (cut name).tail = '.' :: extension := by
  rw [cut]
  cases shortExtension name with
  | none => exact Or.inl rfl
  | some parts => exact Or.inr ⟨parts.2, rfl⟩

end Motrix.Finalize.FileName

/-!
# The name sanitizer of the finalize sidecar

A `str` is its list of characters; its offsets count UTF-8 bytes, and a slice
at an offset inside a character does not return.  The Unicode upper-case
mapping is a parameter.  The sanitizer always returns, and what it returns is
the portable name under the sidecar's rules.
-/

namespace Motrix.Finalize.Sanitize

open Lib FileName

def maxComponentBytes : Nat :=
  254

def maxExtensionBytes : Nat :=
  24

def fallbackName : List Char :=
  "download".toList

def replacement : Char :=
  '_'

def len (text : List Char) : Nat :=
  Offset.size Char.utf8Size text

def isCharBoundary (text : List Char) (offset : Nat) : Bool :=
  (Offset.split Char.utf8Size text offset).isSome

def sliceTo (text : List Char) (stop : Nat) : Option (List Char) :=
  (Offset.split Char.utf8Size text stop).map Prod.fst

def sliceFrom (text : List Char) (start : Nat) : Option (List Char) :=
  (Offset.split Char.utf8Size text start).map Prod.snd

def find (target : Char) (text : List Char) : Option Nat :=
  Offset.firstOffset Char.utf8Size target text

def rfind (target : Char) (text : List Char) : Option Nat :=
  Offset.lastOffset Char.utf8Size target text

def trimEndMatches (text : List Char) : List Char :=
  text.rdropWhile fun character => character == '.' || character == ' '

def strippedOf (start text : List Char) : Option (List Char) :=
  if start.isPrefixOf text then some (text.drop start.length) else none

def isForbiddenCharacter (character : Char) : Bool :=
  character.toNat ≤ 0x1f || character.toNat == 0x7f ||
    ['<', '>', '"', '|', '?', '*', '/', '\\', ':'].contains character

section Reserved

variable (toUppercase : Char → List Char)

def isReservedStem (stem : List Char) : Bool :=
  let upper := stem.flatMap toUppercase
  if ["CON", "PRN", "AUX", "NUL", "CONIN$", "CONOUT$"].any
      fun name => upper == name.toList then
    true
  else
    match (strippedOf "COM".toList upper).or
        (strippedOf "LPT".toList upper) with
    | none => false
    | some port =>
        ["1", "2", "3", "4", "5", "6", "7", "8", "9", "¹", "²", "³"].any
          fun name => port == name.toList

def dereserveName (name : List Char) : Option (List Char) := do
  let stemEnd := (find '.' name).getD (len name)
  let (stem, rest) ← Offset.split Char.utf8Size name stemEnd
  if isReservedStem toUppercase stem then
    return stem ++ ['_'] ++ rest
  else
    return name

end Reserved

def truncateUtf8 (value : List Char) (maxBytes : Nat) :
    Option (List Char) :=
  if len value ≤ maxBytes then
    some value
  else
    sliceTo value (Offset.countDown (isCharBoundary value) maxBytes)

def clampComponent (name : List Char) : Option (List Char) :=
  if len name ≤ maxComponentBytes then
    some name
  else
    let whole := (truncateUtf8 name maxComponentBytes).map trimEndMatches
    match rfind '.' name with
    | none => whole
    | some dot =>
        let extensionBytes := len name - dot - 1
        if 0 < dot ∧ 0 < extensionBytes ∧
            extensionBytes ≤ maxExtensionBytes then do
          let stemBudget := maxComponentBytes - extensionBytes - 1
          let stem ← truncateUtf8 (← sliceTo name dot) stemBudget
          let extension ← sliceFrom name (dot + 1)
          return trimEndMatches stem ++ ['.'] ++ extension
        else
          whole

def sanitizeFilename (toUppercase : Char → List Char)
    (component : List Char) : Option (List Char) := do
  let replaced := component.map fun character =>
    if isForbiddenCharacter character then replacement else character
  let trimmed := trimEndMatches replaced
  let dereserved ← dereserveName toUppercase trimmed
  let clamped ← clampComponent dereserved
  if clamped.isEmpty then
    return fallbackName
  else
    return clamped

def rules (toUppercase : Char → List Char) : Rules where
  illegal := isForbiddenCharacter
  reserved := isReservedStem toUppercase

theorem split_len (front back : List Char) :
    Offset.split Char.utf8Size (front ++ back) (len front) =
      some (front, back) :=
  Offset.split_size Char.utf8Size_pos front back

theorem split_at_len (text : List Char) :
    Offset.split Char.utf8Size text (len text) = some (text, []) := by
  have whole := split_len text []
  rwa [List.append_nil] at whole

theorem sliceTo_len (front back : List Char) :
    sliceTo (front ++ back) (len front) = some front := by
  rw [sliceTo, split_len]
  rfl

theorem dereserveName_eq (toUppercase : Char → List Char)
    (name : List Char) :
    dereserveName toUppercase name =
      some ((rules toUppercase).unreserved name) := by
  by_cases member : '.' ∈ name
  · obtain ⟨front, back, rfl, absent⟩ := List.eq_append_cons_of_mem member
    have stemEnd : (find '.' (front ++ '.' :: back)).getD
        (len (front ++ '.' :: back)) = len front := by
      rw [find, Offset.firstOffset_append _ absent]
      rfl
    simp only [dereserveName, stemEnd, split_len, Rules.unreserved,
      stem_append absent, dropWhile_append absent, rules]
    by_cases held : isReservedStem toUppercase front = true
    · simp [held]
    · simp [held]
  · have stemEnd : (find '.' name).getD (len name) = len name := by
      rw [find, Offset.firstOffset_none _ member]
      rfl
    simp only [dereserveName, stemEnd, split_at_len, Rules.unreserved,
      stem_of_absent member, dropWhile_of_absent member, rules]
    by_cases held : isReservedStem toUppercase name = true
    · simp [held]
    · simp [held]

theorem truncateUtf8_eq (value : List Char) (maxBytes : Nat) :
    truncateUtf8 value maxBytes =
      some (Offset.fit Char.utf8Size maxBytes value) := by
  unfold truncateUtf8
  by_cases short : len value ≤ maxBytes
  · rw [if_pos short, Offset.fit_of_size_le short]
  · obtain ⟨within, back, parts, full⟩ :=
      Offset.fit_spec Char.utf8Size maxBytes value
    generalize Offset.fit Char.utf8Size maxBytes value = kept at *
    subst parts
    have stop : Offset.countDown (isCharBoundary (kept ++ back)) maxBytes =
        len kept := by
      apply Offset.countDown_eq within
      · right
        exact congrArg Option.isSome (split_len kept back)
      · intro position after before
        cases back with
        | nil =>
            rw [List.append_nil] at short
            exact absurd within short
        | cons next rest =>
            have inside := full next rest rfl
            rw [isCharBoundary, Offset.split_inside rest after (by omega)]
            rfl
    rw [if_neg short, stop, sliceTo_len]

theorem sliceFrom_dot (front back : List Char) :
    sliceFrom (front ++ '.' :: back) (len front + 1) = some back := by
  have dot : len (front ++ ['.']) = len front + 1 :=
    Offset.size_append Char.utf8Size front ['.']
  have parts : front ++ '.' :: back = (front ++ ['.']) ++ back := by
    simp
  rw [sliceFrom, parts, ← dot, split_len]
  rfl

theorem trimEndMatches_eq : trimEndMatches = settled :=
  rfl

theorem clampComponent_eq (name : List Char) :
    clampComponent name = some (clamped name) := by
  unfold clampComponent clamped
  by_cases short : len name ≤ maxComponentBytes
  · rw [if_pos short]
    exact (congrArg some (if_pos short)).symm
  · have long : ¬ bytes name ≤ 254 := short
    rw [if_neg short, if_neg long]
    by_cases member : '.' ∈ name
    · obtain ⟨front, back, rfl, absent⟩ := Offset.eq_append_last member
      have extensionBytes :
          len (front ++ '.' :: back) - len front - 1 = bytes back := by
        have total : len (front ++ '.' :: back) =
            len front + (1 + bytes back) :=
          Offset.size_append Char.utf8Size front ('.' :: back)
        omega
      have inFront : 0 < len front ↔ 0 < front.length :=
        Offset.size_pos Char.utf8Size_pos
      have found : rfind '.' (front ++ '.' :: back) = some (len front) :=
        Offset.lastOffset_append _ front absent
      simp only [found, extensionBytes, inFront, truncateUtf8_eq, cut,
        shortExtension_append front absent, sliceTo_len, sliceFrom_dot,
        maxComponentBytes, maxExtensionBytes]
      by_cases kept :
          0 < front.length ∧ 0 < bytes back ∧ bytes back ≤ 24
      · rw [if_pos kept, if_pos kept]
        simp [Cut.result, trimEndMatches_eq]
      · rw [if_neg kept, if_neg kept]
        exact congrArg some (List.append_nil _).symm
    · simp only [rfind, Offset.lastOffset_none _ member, truncateUtf8_eq,
        cut, shortExtension_of_absent member]
      exact congrArg some (List.append_nil _).symm

/-- The sidecar never stops inside a character. -/
theorem sanitizeFilename_eq (toUppercase : Char → List Char)
    (component : List Char) :
    sanitizeFilename toUppercase component =
      some ((rules toUppercase).published component) := by
  unfold sanitizeFilename Rules.published Rules.prepared
  simp only [dereserveName_eq, clampComponent_eq]
  by_cases empty : (clamped ((rules toUppercase).unreserved (settled
      ((rules toUppercase).legalized component)))).isEmpty = true
  · exact (if_pos empty).trans (congrArg some (if_pos empty)).symm
  · exact (if_neg empty).trans (congrArg some (if_neg empty)).symm

end Motrix.Finalize.Sanitize
