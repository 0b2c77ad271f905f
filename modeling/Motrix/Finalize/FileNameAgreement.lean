import Mathlib.Data.List.DropRight
import Mathlib.Data.List.Infix
import Mathlib.Tactic.Tauto
import Motrix.Lib.Offset
import Motrix.Lib.Utf16
import Motrix.Finalize.FileName

/-!
# The name sanitizer of the host

A host string is a list of UTF-16 code units, and its indices count units.
The Unicode upper-case mapping is a parameter.
-/

namespace Motrix.Finalize.FinalizePath

open Lib Lib.Utf16

def maxComponentBytes : Nat :=
  254

def maxExtensionBytes : Nat :=
  24

/-- The units of a string literal. -/
def units (literal : String) : List UInt16 :=
  encode literal.toList

def fallbackName : List UInt16 :=
  units "download"

def replacement : List UInt16 :=
  units "_"

def dot : UInt16 :=
  0x2e

def space : UInt16 :=
  0x20

def indexOf (unit : UInt16) (name : List UInt16) : Option Nat :=
  Offset.firstOffset (fun _ => 1) unit name

def lastIndexOf (unit : UInt16) (name : List UInt16) : Option Nat :=
  Offset.lastOffset (fun _ => 1) unit name

/-- `name.replace(/[. ]+$/u, '')` -/
def trimEnd (name : List UInt16) : List UInt16 :=
  name.rdropWhile fun unit => unit == dot || unit == space

def includes (name part : List UInt16) : Bool :=
  name.tails.any fun tail => part.isPrefixOf tail

/-- A character is the string of one code point. -/
def isForbiddenFilenameCharacter (character : List UInt16) : Bool :=
  (character.head?.any fun code => code ≤ 0x1f || code == 0x7f) ||
    includes (encode ['<', '>', '"', ':', '|', '?', '*', '/', '\\', ':'])
      character

section Reserved

variable (upperCase : Char → List Char)

/-- A surrogate without a partner has no upper case of its own. -/
def toUpperCase (name : List UInt16) : List UInt16 :=
  (codePoints name).flatMap fun point =>
    if point.isValidChar then
      encode (upperCase (Char.ofNat point))
    else
      encodePoint point

def isReservedFilenameStem (stem : List UInt16) : Bool :=
  let upper := toUpperCase upperCase stem
  if ["CON", "PRN", "AUX", "NUL", "CONIN$", "CONOUT$"].any
      fun name => upper == units name then
    true
  else
    ["COM", "LPT"].any fun device =>
      ["1", "2", "3", "4", "5", "6", "7", "8", "9", "¹", "²", "³"].any
        fun port => upper == units device ++ units port

def dereserveFilename (name : List UInt16) : List UInt16 :=
  let stemEnd := indexOf dot name
  let stem :=
    match stemEnd with
    | none => name
    | some stemEnd => name.take stemEnd
  if !isReservedFilenameStem upperCase stem then
    name
  else
    let rest :=
      match stemEnd with
      | none => []
      | some stemEnd => name.drop stemEnd
    stem ++ units "_" ++ rest

end Reserved

def truncateUtf8 (value : List UInt16) (maxBytes : Nat) : List UInt16 :=
  value.take (Offset.countDown
    (fun stop => byteLength (value.take stop) ≤ maxBytes) value.length)

def clampFilenameComponent (name : List UInt16) : List UInt16 :=
  if byteLength name ≤ maxComponentBytes then
    name
  else
    let whole := trimEnd (truncateUtf8 name maxComponentBytes)
    match lastIndexOf dot name with
    | none => whole
    | some index =>
        let extension := name.drop (index + 1)
        let extensionBytes := byteLength extension
        if 0 < index ∧ 0 < extensionBytes ∧
            extensionBytes ≤ maxExtensionBytes then
          let stemBudget := maxComponentBytes - extensionBytes - 1
          let stem := trimEnd (truncateUtf8 (name.take index) stemBudget)
          stem ++ units "." ++ extension
        else
          whole

def sanitizeFinalizeFilename (upperCase : Char → List Char)
    (component : List UInt16) : List UInt16 :=
  let replaced := (codePoints component).flatMap fun point =>
    if isForbiddenFilenameCharacter (encodePoint point) then
      replacement
    else
      encodePoint point
  let trimmed := trimEnd replaced
  let dereserved := dereserveFilename upperCase trimmed
  let clamped := clampFilenameComponent dereserved
  if clamped.isEmpty then fallbackName else clamped

end Motrix.Finalize.FinalizePath

/-!
# Host and sidecar agree on a published name

On a text of characters every step of the host's sanitizer is the sidecar's
step, except for the cut of a name that is too long: the host drops code units,
so it may keep one half of a character whose other half no longer fits.
-/

namespace Motrix.Finalize

open Lib Lib.Utf16 FileName FinalizePath

variable (upperCase : Char → List Char)

theorem includes_iff (name part : List UInt16) :
    includes name part = true ↔ part <:+: name := by
  unfold includes
  rw [List.any_eq_true, List.infix_iff_prefix_suffix]
  simp only [List.mem_tails, List.isPrefixOf_iff_prefix]
  constructor
  · rintro ⟨tail, ends, starts⟩
    exact ⟨tail, starts, ends⟩
  · rintro ⟨tail, starts, ends⟩
    exact ⟨tail, ends, starts⟩

theorem isForbiddenFilenameCharacter_iff (unit : UInt16)
    (more : List UInt16) :
    isForbiddenFilenameCharacter (unit :: more) = true ↔
      (unit.toNat ≤ 0x1f ∨ unit.toNat = 0x7f) ∨
        unit :: more <:+:
          encode ['<', '>', '"', ':', '|', '?', '*', '/', '\\', ':'] := by
  have control : unit ≤ 0x1f ↔ unit.toNat ≤ 0x1f := UInt16.le_iff_toNat_le
  have delete : unit = 0x7f ↔ unit.toNat = 0x7f := UInt16.toNat_inj.symm
  rw [isForbiddenFilenameCharacter, List.head?_cons, Option.any_some,
    Bool.or_eq_true, Bool.or_eq_true, includes_iff, decide_eq_true_eq,
    beq_iff_eq, control, delete]

theorem isForbiddenCharacter_iff (character : Char) :
    Sanitize.isForbiddenCharacter character = true ↔
      (character.toNat ≤ 0x1f ∨ character.toNat = 0x7f) ∨
        character ∈ ['<', '>', '"', '|', '?', '*', '/', '\\', ':'] := by
  rw [Sanitize.isForbiddenCharacter, Bool.or_eq_true, Bool.or_eq_true,
    decide_eq_true_eq, beq_iff_eq, List.contains_iff_mem]

/-- The two spellings of the forbidden characters name the same ones. -/
theorem mem_forbidden_iff (character : Char) :
    character ∈ ['<', '>', '"', ':', '|', '?', '*', '/', '\\', ':'] ↔
      character ∈ ['<', '>', '"', '|', '?', '*', '/', '\\', ':'] := by
  simp only [List.mem_cons, List.not_mem_nil, or_false]
  tauto

theorem isForbidden_encodePoint (character : Char) :
    isForbiddenFilenameCharacter (encodePoint character.toNat) =
      Sanitize.isForbiddenCharacter character := by
  rw [Bool.eq_iff_iff, isForbiddenCharacter_iff]
  by_cases small : character.toNat < 0x10000
  · rw [encodePoint_small small, isForbiddenFilenameCharacter_iff,
      unit_toNat small, List.singleton_infix_iff, mem_encode_iff small,
      mem_forbidden_iff]
  · have large : 0x10000 ≤ character.toNat := Nat.not_lt.mp small
    have lead := highSurrogate_toNat large (char_toNat_lt character)
    have ascii : (encode
        ['<', '>', '"', ':', '|', '?', '*', '/', '\\', ':']).all
          (fun unit => decide (unit.toNat < 0x80)) = true :=
      rfl
    have listed : ['<', '>', '"', '|', '?', '*', '/', '\\', ':'].all
        (fun other => decide (other.toNat < 0x80)) = true :=
      rfl
    rw [encodePoint_large large, isForbiddenFilenameCharacter_iff]
    constructor
    · rintro (control | inside)
      · omega
      · have below := of_decide_eq_true (List.all_eq_true.mp ascii _
          (inside.subset List.mem_cons_self))
        omega
    · rintro (control | inside)
      · omega
      · have below :=
          of_decide_eq_true (List.all_eq_true.mp listed character inside)
        omega

theorem replaced_eq (component : List Char) :
    ((codePoints (encode component)).flatMap fun point =>
      if isForbiddenFilenameCharacter (encodePoint point) then
        FinalizePath.replacement
      else
        encodePoint point) =
      encode ((Sanitize.rules upperCase).legalized component) := by
  rw [codePoints_encode, List.flatMap_map]
  unfold Rules.legalized encode
  rw [List.flatMap_map]
  congr 1
  funext character
  rw [isForbidden_encodePoint]
  exact (apply_ite (fun character : Char => encodePoint character.toNat)
    (Sanitize.isForbiddenCharacter character = true) '_' character).symm

theorem encode_concat (name : List Char) (character : Char) :
    encode (name ++ [character]) =
      encode name ++ encodePoint character.toNat := by
  rw [encode_append, encode_cons, encode_nil, List.append_nil]

/-- The end of a character is trimmed only if it is a dot or a space. -/
theorem trimEnd_concat (front : List UInt16) {unit : UInt16}
    (kept : unit.toNat ≠ 0x2e ∧ unit.toNat ≠ 0x20) :
    trimEnd (front ++ [unit]) = front ++ [unit] := by
  apply List.rdropWhile_concat_neg
  rw [Bool.or_eq_true, beq_iff_eq, beq_iff_eq]
  rintro (rfl | rfl)
  · exact kept.1 rfl
  · exact kept.2 rfl

theorem trimEnd_encode (name : List Char) :
    trimEnd (encode name) = encode (settled name) := by
  induction name using List.reverseRecOn with
  | nil => rfl
  | append_singleton name last induction =>
      rw [encode_concat]
      by_cases trimmed : dropped last = true
      · have shorter : settled (name ++ [last]) = settled name :=
          List.rdropWhile_concat_pos _ _ _ trimmed
        rw [shorter, ← induction]
        rw [dropped, Bool.or_eq_true, beq_iff_eq, beq_iff_eq] at trimmed
        rcases trimmed with rfl | rfl
        · exact List.rdropWhile_concat_pos _ _ _ rfl
        · exact List.rdropWhile_concat_pos _ _ _ rfl
      · have same : settled (name ++ [last]) = name ++ [last] :=
          List.rdropWhile_concat_neg _ _ _ trimmed
        rw [same, encode_concat]
        by_cases small : last.toNat < 0x10000
        · rw [encodePoint_small small]
          apply trimEnd_concat
          rw [unit_toNat small]
          have other : last ≠ '.' ∧ last ≠ ' ' := by
            simpa [dropped] using trimmed
          exact ⟨fun same => other.1 (Char.toNat_inj.mp same),
            fun same => other.2 (Char.toNat_inj.mp same)⟩
        · have large : 0x10000 ≤ last.toNat := Nat.not_lt.mp small
          have trail := lowSurrogate_toNat last.toNat
          have parts : encode name ++ encodePoint last.toNat =
              (encode name ++ [highSurrogate last.toNat]) ++
                [lowSurrogate last.toNat] := by
            rw [encodePoint_large large]
            simp
          rw [parts]
          apply trimEnd_concat
          omega

theorem toUpperCase_encode (name : List Char) :
    toUpperCase upperCase (encode name) = encode (name.flatMap upperCase) := by
  rw [toUpperCase, codePoints_encode, List.flatMap_map, encode_flatMap]
  congr 1
  funext character
  have valid : character.toNat.isValidChar := character.valid
  rw [if_pos valid, Char.ofNat_toNat]

theorem encode_beq (left right : List Char) :
    (encode left == encode right) = (left == right) := by
  rw [Bool.eq_iff_iff, beq_iff_eq, beq_iff_eq]
  exact encode_injective.eq_iff

theorem strippedOf_append (start rest : List Char) :
    Sanitize.strippedOf start (start ++ rest) = some rest := by
  have starts : start.isPrefixOf (start ++ rest) = true :=
    List.isPrefixOf_iff_prefix.mpr (List.prefix_append start rest)
  rw [Sanitize.strippedOf, if_pos starts, List.drop_left]

theorem strippedOf_eq_none {start text : List Char}
    (other : ¬ start <+: text) : Sanitize.strippedOf start text = none :=
  if_neg fun starts => other (List.isPrefixOf_iff_prefix.mp starts)

theorem any_append_beq (start rest : List Char) (ports : List String) :
    (ports.any fun port => start ++ rest == start ++ port.toList) =
      ports.any fun port => rest == port.toList := by
  congr 1
  funext port
  rw [Bool.eq_iff_iff, beq_iff_eq, beq_iff_eq]
  exact List.append_right_inj start

theorem any_beq_eq_false {start text : List Char} (ports : List String)
    (other : ¬ start <+: text) :
    (ports.any fun port => text == start ++ port.toList) = false := by
  rw [List.any_eq_false]
  rintro port _ same
  apply other
  rw [beq_iff_eq.mp same]
  exact List.prefix_append start port.toList

/-- The pattern of a device with a port, and the strip of the device. -/
theorem device_port_eq (upper : List Char) (ports : List String) :
    (["COM", "LPT"].any fun device =>
      ports.any fun port => upper == device.toList ++ port.toList) =
      match (Sanitize.strippedOf "COM".toList upper).or
          (Sanitize.strippedOf "LPT".toList upper) with
      | none => false
      | some rest => ports.any fun port => rest == port.toList := by
  rw [List.any_cons, List.any_cons, List.any_nil, Bool.or_false]
  by_cases serial : "COM".toList <+: upper
  · obtain ⟨rest, rfl⟩ := serial
    have notPrinter : ¬ "LPT".toList <+: "COM".toList ++ rest := by
      rintro ⟨other, same⟩
      injection same with first
      exact absurd first (by decide)
    rw [strippedOf_append, any_append_beq, any_beq_eq_false _ notPrinter,
      Bool.or_false]
    rfl
  · rw [strippedOf_eq_none serial, any_beq_eq_false _ serial,
      Bool.false_or, Option.none_or]
    by_cases printer : "LPT".toList <+: upper
    · obtain ⟨rest, rfl⟩ := printer
      rw [strippedOf_append, any_append_beq]
    · rw [strippedOf_eq_none printer, any_beq_eq_false _ printer]

theorem isReservedFilenameStem_encode (stem : List Char) :
    isReservedFilenameStem upperCase (encode stem) =
      Sanitize.isReservedStem upperCase stem := by
  unfold isReservedFilenameStem Sanitize.isReservedStem
  simp only [toUpperCase_encode, units, ← encode_append, encode_beq]
  by_cases named : (["CON", "PRN", "AUX", "NUL", "CONIN$", "CONOUT$"].any
      fun name => stem.flatMap upperCase == name.toList) = true
  · rw [if_pos named, if_pos named]
  · rw [if_neg named, if_neg named]
    exact device_port_eq _ _

theorem encode_dot (front back : List Char) :
    encode (front ++ '.' :: back) =
      encode front ++ FinalizePath.dot :: encode back := by
  rw [encode_append, encode_cons]
  rfl

theorem dot_mem_encode (name : List Char) :
    FinalizePath.dot ∈ encode name ↔ '.' ∈ name := by
  have small : '.'.toNat < 0x10000 := by decide
  exact mem_encode_iff small name

theorem dereserveFilename_encode (name : List Char) :
    dereserveFilename upperCase (encode name) =
      encode ((Sanitize.rules upperCase).unreserved name) := by
  have underscore (front : List Char) (rest : List UInt16) :
      encode front ++ units "_" ++ rest =
        encode front ++ encodePoint '_'.toNat ++ rest :=
    rfl
  by_cases member : '.' ∈ name
  · obtain ⟨front, back, rfl, absent⟩ := List.eq_append_cons_of_mem member
    have found : indexOf FinalizePath.dot (encode (front ++ '.' :: back)) =
        some (encode front).length := by
      rw [encode_dot, indexOf,
        Offset.firstOffset_append _ fun inside =>
          absent ((dot_mem_encode front).mp inside), Offset.size_one]
    have before : (encode (front ++ '.' :: back)).take (encode front).length =
        encode front := by
      rw [encode_append, List.take_left]
    have after : (encode (front ++ '.' :: back)).drop (encode front).length =
        encode ('.' :: back) := by
      rw [encode_append, List.drop_left]
    simp only [dereserveFilename, found, before, after,
      isReservedFilenameStem_encode, Rules.unreserved, stem_append absent,
      dropWhile_append absent, Sanitize.rules]
    by_cases held : Sanitize.isReservedStem upperCase front = true
    · simp [held, underscore, encode_append, encode_cons]
    · simp [held]
  · have missing : indexOf FinalizePath.dot (encode name) = none :=
      Offset.firstOffset_none _ fun inside =>
        member ((dot_mem_encode name).mp inside)
    simp only [dereserveFilename, missing, isReservedFilenameStem_encode,
      Rules.unreserved, stem_of_absent member, dropWhile_of_absent member,
      Sanitize.rules]
    by_cases held : Sanitize.isReservedStem upperCase name = true
    · simp [held, underscore, encode_append, encode_cons]
    · simp [held]

section Truncation

variable {text : List Char} {maxBytes : Nat}

/-- The budget ends after the third byte of a supplementary character. -/
def CutsPair (text : List Char) (maxBytes : Nat) : Prop :=
  ∃ front character rest, text = front ++ character :: rest ∧
    0x10000 ≤ character.toNat ∧ bytes front + 3 = maxBytes

theorem byteLength_encode_bytes (name : List Char) :
    byteLength (encode name) = bytes name :=
  byteLength_encode name

/-- The host keeps the units up to the longest start within the budget. -/
theorem truncateUtf8_append {kept back : List UInt16}
    (within : byteLength kept ≤ maxBytes)
    (full : ∀ next rest, back = next :: rest →
      maxBytes < byteLength (kept ++ [next])) :
    FinalizePath.truncateUtf8 (kept ++ back) maxBytes = kept := by
  have stop : Offset.countDown
      (fun stop => byteLength ((kept ++ back).take stop) ≤ maxBytes)
      (kept ++ back).length = kept.length := by
    apply Offset.countDown_eq
    · rw [List.length_append]
      exact Nat.le_add_right _ _
    · right
      rw [List.take_left]
      exact decide_eq_true within
    · intro position after before
      cases back with
      | nil =>
          rw [List.append_nil] at before
          exact absurd after (Nat.not_lt.mpr before)
      | cons next rest =>
          obtain ⟨more, longer⟩ :
              (kept ++ [next]) <+: (kept ++ next :: rest).take position := by
            rw [List.prefix_take_iff, List.length_append]
            exact ⟨⟨rest, List.append_assoc kept [next] rest⟩, after⟩
          have beyond := full next rest rfl
          have grows := byteLength_le_append (kept ++ [next]) more
          rw [longer] at grows
          apply decide_eq_false
          omega
  rw [FinalizePath.truncateUtf8, stop, List.take_left]

theorem utf8Size_large {character : Char}
    (large : 0x10000 ≤ character.toNat) : character.utf8Size = 4 := by
  rw [← pointSize_char]
  exact pointSize_large large

theorem byteLength_append_high (front : List Char) {character : Char}
    (large : 0x10000 ≤ character.toNat) :
    byteLength (encode front ++ [highSurrogate character.toNat]) =
      bytes front + 3 := by
  have lead := highSurrogate_toNat large (char_toNat_lt character)
  have valid := char_toNat_lt character
  have alone : byteLength [highSurrogate character.toNat] = 3 := by
    rw [byteLength_singleton]
    apply pointSize_surrogate
    · omega
    · omega
  rw [byteLength_encode_append, alone]
  rfl

theorem encode_large {character : Char} (large : 0x10000 ≤ character.toNat)
    (front rest : List Char) :
    encode (front ++ character :: rest) =
      encode front ++ highSurrogate character.toNat ::
        lowSurrogate character.toNat :: encode rest := by
  rw [encode_append, encode_cons, encodePoint_large large]
  rfl

/-- At a supplementary character the host keeps its first unit alone. -/
theorem truncateUtf8_cut {front : List Char} {character : Char}
    (rest : List Char) (large : 0x10000 ≤ character.toNat)
    (budget : bytes front + 3 = maxBytes) :
    FinalizePath.truncateUtf8 (encode (front ++ character :: rest)) maxBytes =
      encode front ++ [highSurrogate character.toNat] := by
  have parts : encode (front ++ character :: rest) =
      (encode front ++ [highSurrogate character.toNat]) ++
        lowSurrogate character.toNat :: encode rest := by
    rw [encode_large large, List.append_assoc]
    rfl
  rw [parts]
  apply truncateUtf8_append
  · rw [byteLength_append_high front large]
    exact Nat.le_of_eq budget
  · rintro next more same
    obtain ⟨rfl, _⟩ := List.cons.inj same
    have joined : encode front ++ [highSurrogate character.toNat] ++
        [lowSurrogate character.toNat] = encode (front ++ [character]) := by
      rw [encode_large large, List.append_assoc]
      rfl
    have total : bytes (front ++ [character]) =
        bytes front + character.utf8Size :=
      Offset.size_append Char.utf8Size front [character]
    rw [joined, byteLength_encode_bytes, total, utf8Size_large large]
    omega

theorem truncateUtf8_encode (whole : ¬ CutsPair text maxBytes) :
    FinalizePath.truncateUtf8 (encode text) maxBytes =
      encode (Offset.fit Char.utf8Size maxBytes text) := by
  obtain ⟨within, back, parts, full⟩ :=
    Offset.fit_spec Char.utf8Size maxBytes text
  generalize Offset.fit Char.utf8Size maxBytes text = kept at *
  subst parts
  rw [encode_append]
  apply truncateUtf8_append
  · rw [byteLength_encode_bytes]
    exact within
  · intro next more same
    cases back with
    | nil => cases same
    | cons character rest =>
        have beyond : maxBytes < bytes kept + character.utf8Size :=
          full character rest rfl
        by_cases small : character.toNat < 0x10000
        · rw [encode_cons, encodePoint_small small] at same
          obtain ⟨rfl, _⟩ := List.cons.inj same
          rw [← encodePoint_small small, ← encode_concat,
            byteLength_encode_bytes]
          exact Nat.lt_of_lt_of_eq beyond
            (Offset.size_append Char.utf8Size kept [character]).symm
        · have large : 0x10000 ≤ character.toNat := Nat.not_lt.mp small
          rw [encode_cons, encodePoint_large large] at same
          obtain ⟨rfl, _⟩ := List.cons.inj same
          have apart : bytes kept + 3 ≠ maxBytes := fun budget =>
            whole ⟨kept, character, rest, rfl, large, budget⟩
          rw [utf8Size_large large] at beyond
          rw [byteLength_append_high kept large]
          omega

end Truncation

/-- Where the cut of a name falls inside a supplementary character. -/
def SplitsPair (name : List Char) : Prop :=
  254 < bytes name ∧ CutsPair (cut name).text (cut name).budget

section Clamp

variable {name : List Char}

theorem clampFilenameComponent_short (short : bytes name ≤ 254) :
    clampFilenameComponent (encode name) = encode name := by
  apply if_pos
  rw [byteLength_encode_bytes]
  exact short

theorem clampFilenameComponent_long (long : 254 < bytes name) :
    clampFilenameComponent (encode name) =
      trimEnd (FinalizePath.truncateUtf8 (encode (cut name).text)
        (cut name).budget) ++ encode (cut name).tail := by
  have exceeds : ¬ byteLength (encode name) ≤
      FinalizePath.maxComponentBytes := by
    rw [byteLength_encode_bytes]
    exact Nat.not_le.mpr long
  rw [clampFilenameComponent, if_neg exceeds]
  by_cases member : '.' ∈ name
  · obtain ⟨front, back, rfl, absent⟩ := Offset.eq_append_last member
    have found : lastIndexOf FinalizePath.dot
        (encode (front ++ '.' :: back)) = some (encode front).length := by
      rw [encode_dot, lastIndexOf,
        Offset.lastOffset_append _ _ fun inside =>
          absent ((dot_mem_encode back).mp inside), Offset.size_one]
    have before : (encode (front ++ '.' :: back)).take (encode front).length =
        encode front := by
      rw [encode_append, List.take_left]
    have after : (encode (front ++ '.' :: back)).drop
        ((encode front).length + 1) = encode back := by
      rw [encode_dot, ← List.drop_drop, List.drop_left]
      rfl
    have inFront : 0 < (encode front).length ↔ 0 < front.length := by
      rw [List.length_pos_iff, List.length_pos_iff, Ne, encode_eq_nil]
    simp only [found, before, after, byteLength_encode_bytes, inFront,
      FinalizePath.maxExtensionBytes, FinalizePath.maxComponentBytes,
      cut_append front absent]
    by_cases kept : 0 < front.length ∧ 0 < bytes back ∧ bytes back ≤ 24
    · rw [if_pos kept, if_pos kept, List.append_assoc]
      rfl
    · rw [if_neg kept, if_neg kept]
      exact (List.append_nil _).symm
  · have missing : lastIndexOf FinalizePath.dot (encode name) = none :=
      Offset.lastOffset_none _ fun inside =>
        member ((dot_mem_encode name).mp inside)
    rw [missing, cut_of_absent member]
    exact (List.append_nil _).symm

theorem clampFilenameComponent_encode (whole : ¬ SplitsPair name) :
    clampFilenameComponent (encode name) = encode (clamped name) := by
  by_cases short : bytes name ≤ 254
  · rw [clampFilenameComponent_short short, clamped, if_pos short]
  · have long : 254 < bytes name := Nat.not_le.mp short
    rw [clampFilenameComponent_long long, clamped, if_neg short,
      truncateUtf8_encode fun cuts => whole ⟨long, cuts⟩, trimEnd_encode,
      ← encode_append]
    rfl

/-- A split pair leaves its high surrogate alone in the name. -/
theorem clampFilenameComponent_split (splits : SplitsPair name) :
    ∃ point ∈ codePoints (clampFilenameComponent (encode name)),
      0xD800 ≤ point ∧ point ≤ 0xDFFF := by
  obtain ⟨long, front, character, rest, same, large, budget⟩ := splits
  have lead := highSurrogate_toNat large (char_toNat_lt character)
  have valid := char_toNat_lt character
  refine ⟨(highSurrogate character.toNat).toNat, ?_, by omega, by omega⟩
  rw [clampFilenameComponent_long long, same,
    truncateUtf8_cut rest large budget, trimEnd_concat _ (by omega),
    List.append_assoc, codePoints_encode_append]
  apply List.mem_append_right
  rcases cut_tail name with none | ⟨extension, dotted⟩
  · rw [none]
    exact List.mem_singleton.mpr rfl
  · have units : encode ('.' :: extension) =
        FinalizePath.dot :: encode extension :=
      encode_dot [] extension
    have unpaired : isLowSurrogate FinalizePath.dot = false := rfl
    rw [dotted, List.singleton_append, units,
      codePoints_cons_cons_alone unpaired]
    exact List.mem_cons_self

end Clamp

theorem sanitizeFinalizeFilename_clamp (component : List Char) :
    FinalizePath.sanitizeFinalizeFilename upperCase (encode component) =
      if (clampFilenameComponent (encode
          ((Sanitize.rules upperCase).prepared component))).isEmpty then
        FinalizePath.fallbackName
      else
        clampFilenameComponent (encode
          ((Sanitize.rules upperCase).prepared component)) := by
  rw [FinalizePath.sanitizeFinalizeFilename, replaced_eq upperCase,
    trimEnd_encode, dereserveFilename_encode]
  rfl

/-- Both sanitizers return one name unless the host splits a character. -/
theorem sanitizers_agree_iff (component : List Char) :
    (Sanitize.sanitizeFilename upperCase component).map encode =
        some (FinalizePath.sanitizeFinalizeFilename upperCase
          (encode component)) ↔
      ¬ SplitsPair ((Sanitize.rules upperCase).prepared component) := by
  rw [Sanitize.sanitizeFilename_eq, sanitizeFinalizeFilename_clamp,
    Option.map_some, Option.some_inj, Rules.published]
  generalize (Sanitize.rules upperCase).prepared component = name
  constructor
  · intro same splits
    obtain ⟨point, member, surrogate⟩ := clampFilenameComponent_split splits
    have kept : ¬ (clampFilenameComponent (encode name)).isEmpty = true := by
      intro empty
      rw [List.isEmpty_iff.mp empty] at member
      exact absurd member List.not_mem_nil
    rw [if_neg kept] at same
    have scalar := not_surrogate_of_encode same.symm member
    omega
  · intro whole
    rw [clampFilenameComponent_encode whole]
    by_cases empty : clamped name = []
    · rw [empty]
      rfl
    · have kept : ¬ (encode (clamped name)).isEmpty = true := fun gone =>
        empty (encode_eq_nil.mp (List.isEmpty_iff.mp gone))
      have other : ¬ (clamped name).isEmpty = true := fun gone =>
        empty (List.isEmpty_iff.mp gone)
      rw [if_neg kept, if_neg other]

/-- A name one byte over the budget whose last character is two units. -/
def clapperName : List Char :=
  List.replicate 251 'a' ++ ['🎬']

theorem clapperName_differs :
    Sanitize.sanitizeFilename (fun character => [character.toUpper])
        clapperName = some (List.replicate 251 'a') ∧
      FinalizePath.sanitizeFinalizeFilename
          (fun character => [character.toUpper]) (encode clapperName) =
        encode (List.replicate 251 'a') ++ [0xD83C] ∧
      ¬ (Sanitize.sanitizeFilename (fun character => [character.toUpper])
          clapperName).map encode =
        some (FinalizePath.sanitizeFinalizeFilename
          (fun character => [character.toUpper]) (encode clapperName)) := by
  decide +kernel

end Motrix.Finalize
