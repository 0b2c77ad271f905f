import Motrix.Finalize.FileNameAgreement
import Motrix.Finalize.SanitizedNames

/-!
# What the host's sanitizer returns

Every sanitized name has allowed units, keeps its end and fits the budget; it
is left alone by a second run unless a device name stands in front of its first
dot, which only the cut of a long name can bring about.  The units of the
host's strings need not be characters.
-/

namespace Motrix.Finalize.Published

open Lib Lib.Utf16 FinalizePath
open Sanitize (UpperCase asciiUpperCase)

/-! ## Units of names -/

def cleanUnit (unit : UInt16) : UInt16 :=
  if isForbiddenFilenameCharacter [unit] then 0x5f else unit

theorem allowed_large (unit : UInt16) (large : 0x80 ≤ unit.toNat)
    (rest : List UInt16) :
    isForbiddenFilenameCharacter (unit :: rest) = false := by
  rw [← Bool.not_eq_true, isForbiddenFilenameCharacter_iff]
  have ascii : (encode
      ['<', '>', '"', ':', '|', '?', '*', '/', '\\', ':']).all
        (fun unit => decide (unit.toNat < 0x80)) = true :=
    rfl
  intro forbidden
  rcases forbidden with control | inside
  · omega
  · have below := of_decide_eq_true (List.all_eq_true.mp ascii _
      (inside.subset List.mem_cons_self))
    omega

theorem encodePoint_unit (unit : UInt16) :
    encodePoint unit.toNat = [unit] := by
  rw [encodePoint_small unit.toNat_lt]
  simp

theorem encodePoint_pair {high low : UInt16}
    (first : isHighSurrogate high = true)
    (second : isLowSurrogate low = true) :
    encodePoint (0x10000 + (high.toNat - 0xD800) * 0x400 +
      (low.toNat - 0xDC00)) = [high, low] := by
  rw [isHighSurrogate_iff] at first
  rw [isLowSurrogate_iff] at second
  rw [encodePoint_large (by omega)]
  rw [List.cons.injEq, List.cons.injEq]
  refine ⟨?_, ?_, rfl⟩
  · apply UInt16.toNat_inj.mp
    rw [highSurrogate_toNat (by omega) (by omega)]
    omega
  · apply UInt16.toNat_inj.mp
    rw [lowSurrogate_toNat]
    omega

/-- Only single units are forbidden, so a name is cleaned unit by unit. -/
theorem replaced_units (name : List UInt16) :
    ((codePoints name).flatMap fun point =>
      if isForbiddenFilenameCharacter (encodePoint point) then
        FinalizePath.replacement
      else
        encodePoint point) = name.map cleanUnit := by
  have single : ∀ unit : UInt16,
      (if isForbiddenFilenameCharacter (encodePoint unit.toNat) then
        FinalizePath.replacement
      else
        encodePoint unit.toNat) = [cleanUnit unit] := by
    intro unit
    rw [encodePoint_unit, cleanUnit]
    split
    · rfl
    · rfl
  fun_induction codePoints name with
  | case1 => rfl
  | case2 unit => simpa using single unit
  | case3 first second rest paired induction =>
      rw [Bool.and_eq_true] at paired
      have high := paired.1
      have low := paired.2
      rw [isHighSurrogate_iff] at high
      rw [isLowSurrogate_iff] at low
      rw [List.flatMap_cons, induction, encodePoint_pair paired.1 paired.2,
        allowed_large first (by omega)]
      simp [cleanUnit, allowed_large first (by omega) [],
        allowed_large second (by omega) []]
  | case4 first second rest unpaired induction =>
      rw [List.flatMap_cons, induction, single]
      rfl

theorem byteLength_append_plain (front : List UInt16) {unit : UInt16}
    (plain : isLowSurrogate unit = false) (rest : List UInt16) :
    byteLength (front ++ unit :: rest) =
      byteLength front + byteLength (unit :: rest) := by
  fun_induction codePoints front with
  | case1 => simp [byteLength, codePoints]
  | case2 first =>
      have points : codePoints (first :: unit :: rest) = _ :=
        codePoints_cons_cons_alone plain rest
      have read := byteLength_of_codePoints points
      rw [List.singleton_append, read, byteLength_singleton]
  | case3 first second others paired induction =>
      rw [Bool.and_eq_true] at paired
      have whole := byteLength_of_codePoints
        (codePoints_pair paired.1 paired.2 (others ++ unit :: rest))
      have part := byteLength_of_codePoints
        (codePoints_pair paired.1 paired.2 others)
      rw [List.cons_append, List.cons_append, whole, part, induction]
      omega
  | case4 first second others unpaired induction =>
      have alone : ∀ tail, codePoints (first :: second :: tail) =
          first.toNat :: codePoints (second :: tail) := by
        intro tail
        simp [codePoints, unpaired]
      have whole := byteLength_of_codePoints (alone (others ++ unit :: rest))
      have part := byteLength_of_codePoints (alone others)
      rw [List.cons_append] at induction
      rw [List.cons_append, List.cons_append, whole, part, induction]
      omega

theorem byteLength_ascii {part : List UInt16}
    (ascii : ∀ unit ∈ part, unit.toNat < 0x80) :
    byteLength part = part.length := by
  induction part with
  | nil => rfl
  | cons unit rest induction =>
      have small := ascii unit List.mem_cons_self
      have plain : isHighSurrogate unit = false := by
        rw [← Bool.not_eq_true, isHighSurrogate_iff]
        omega
      rw [byteLength_of_codePoints (codePoints_cons_alone plain rest),
        induction fun other member =>
          ascii other (List.mem_cons_of_mem unit member),
        pointSize, if_pos small, List.length_cons, Nat.add_comm]

theorem byteLength_append_ascii (front part : List UInt16)
    (ascii : ∀ unit ∈ part, unit.toNat < 0x80) :
    byteLength (front ++ part) = byteLength front + part.length := by
  cases part with
  | nil => simp
  | cons unit rest =>
      have small := ascii unit List.mem_cons_self
      have plain : isLowSurrogate unit = false := by
        rw [← Bool.not_eq_true, isLowSurrogate_iff]
        omega
      rw [byteLength_append_plain front plain, byteLength_ascii ascii]

/-! ## Reserved stems -/

def stemOf (name : List UInt16) : List UInt16 :=
  name.takeWhile (· != dot)

theorem stemOf_append {front : List UInt16} (absent : dot ∉ front)
    (back : List UInt16) : stemOf (front ++ dot :: back) = front := by
  have all : ∀ unit ∈ front, (unit != dot) = true := by
    intro unit member
    rw [bne_iff_ne]
    intro same
    exact absent (same ▸ member)
  rw [stemOf, List.takeWhile_append_of_pos all]
  simp

theorem stemOf_absent {name : List UInt16} (absent : dot ∉ name) :
    stemOf name = name := by
  have all : ∀ unit ∈ name, (unit != dot) = true := by
    intro unit member
    rw [bne_iff_ne]
    intro same
    exact absent (same ▸ member)
  exact List.takeWhile_eq_self_iff.mpr all

/-- A name is its stem, or its stem and what follows the first dot. -/
theorem stemOf_cases (name : List UInt16) :
    dot ∉ stemOf name ∧
      (name = stemOf name ∨ ∃ rest, name = stemOf name ++ dot :: rest) := by
  by_cases member : dot ∈ name
  · obtain ⟨front, rest, same, absent⟩ := List.eq_append_cons_of_mem member
    rw [same, stemOf_append absent]
    exact ⟨absent, Or.inr ⟨rest, rfl⟩⟩
  · rw [stemOf_absent member]
    exact ⟨member, Or.inl rfl⟩

theorem dereserveFilename_eq (upperCase : Char → List Char)
    (name : List UInt16) :
    dereserveFilename upperCase name =
      if isReservedFilenameStem upperCase (stemOf name) then
        stemOf name ++ 0x5f :: name.drop (stemOf name).length
      else name := by
  obtain ⟨absent, whole | ⟨rest, parts⟩⟩ := stemOf_cases name
  · have missing : indexOf dot name = none :=
      Offset.firstOffset_none _ (whole ▸ absent)
    rw [← whole]
    simp only [dereserveFilename, missing, List.drop_length]
    cases isReservedFilenameStem upperCase name with
    | false => rfl
    | true => exact List.append_nil _
  · generalize stemOf name = stem at absent parts
    subst parts
    have found : indexOf dot (stem ++ dot :: rest) = some stem.length := by
      rw [indexOf, Offset.firstOffset_append _ absent, Offset.size_one]
    simp only [dereserveFilename, found, List.take_left, List.drop_left]
    cases isReservedFilenameStem upperCase stem with
    | false => rfl
    | true => simp [units, encode, encodePoint]

section Reserved

variable {upperCase : UpperCase} {stem : List UInt16}

theorem reserved_device
    (reserved : isReservedFilenameStem upperCase.map stem = true) :
    ∃ device ∈ Sanitize.deviceNames,
      toUpperCase upperCase.map stem = encode device := by
  simp only [isReservedFilenameStem] at reserved
  split at reserved
  · next named =>
      obtain ⟨name, listed, same⟩ := List.any_eq_true.mp named
      exact ⟨name.toList, List.mem_append_left _ (List.mem_map_of_mem listed),
        eq_of_beq same⟩
  · obtain ⟨device, listed, ports⟩ := List.any_eq_true.mp reserved
    obtain ⟨port, among, same⟩ := List.any_eq_true.mp ports
    refine ⟨device.toList ++ port.toList, ?_, ?_⟩
    · apply List.mem_append_right
      exact List.mem_flatMap.mpr ⟨device, listed, List.mem_map_of_mem among⟩
    · rw [eq_of_beq same, encode_append]
      rfl

/-- The upper case of every code point has a unit. -/
theorem length_le_toUpperCase (upperCase : UpperCase)
    (stem : List UInt16) :
    (codePoints stem).length ≤ (toUpperCase upperCase.map stem).length := by
  unfold toUpperCase
  induction codePoints stem with
  | nil => exact Nat.le_refl _
  | cons point rest induction =>
      have one : ∀ code : Nat, 0 < (encodePoint code).length := by
        intro code
        unfold encodePoint
        split
        · exact Nat.zero_lt_one
        · exact Nat.zero_lt_two
      rw [List.flatMap_cons, List.length_append, List.length_cons]
      have some' : 0 < (if point.isValidChar then
          encode (upperCase.map (Char.ofNat point))
        else
          encodePoint point).length := by
        split
        · obtain ⟨first, rest, same⟩ := List.exists_cons_of_ne_nil
            (upperCase.nonempty (Char.ofNat point))
          rw [same, encode_cons, List.length_append]
          exact Nat.lt_add_right _ (one _)
        · exact one point
      omega

theorem pointSize_le (point : Nat) : pointSize point ≤ 4 := by
  unfold pointSize
  split_ifs <;> omega

theorem encode_length_le {device : List Char}
    (ascii : ∀ character ∈ device, character.toNat < 0x10000) :
    (encode device).length = device.length := by
  induction device with
  | nil => rfl
  | cons head rest induction =>
      rw [encode_cons, encodePoint_small (ascii head List.mem_cons_self),
        List.length_append, induction fun other member =>
          ascii other (List.mem_cons_of_mem head member)]
      exact Nat.add_comm _ _

/-- A reserved stem has at most as many code points as a device name. -/
theorem reserved_points
    (reserved : isReservedFilenameStem upperCase.map stem = true) :
    (codePoints stem).length ≤ 7 := by
  obtain ⟨device, listed, same⟩ := reserved_device reserved
  have few := (Sanitize.deviceNames_plain device listed).2.1
  have narrow : Sanitize.deviceNames.all (fun device =>
      device.all fun character => decide (character.toNat < 0x10000)) =
        true := by
    decide
  have length := encode_length_le fun character member =>
    of_decide_eq_true (List.all_eq_true.mp
      (List.all_eq_true.mp narrow device listed) character member)
  have points := length_le_toUpperCase upperCase stem
  rw [same] at points
  omega

theorem reserved_small
    (reserved : isReservedFilenameStem upperCase.map stem = true) :
    byteLength stem ≤ 28 := by
  have few := reserved_points reserved
  have bytes : ∀ points : List Nat,
      Offset.size pointSize points ≤ 4 * points.length := by
    intro points
    induction points with
    | nil => exact Nat.le_refl _
    | cons point rest induction =>
        have width := pointSize_le point
        rw [Offset.size_cons, List.length_cons]
        omega
  have most := bytes (codePoints stem)
  unfold byteLength
  omega

theorem mem_codePoints {name : List UInt16} {unit : UInt16}
    (member : unit ∈ name) (ascii : unit.toNat < 0x80) :
    unit.toNat ∈ codePoints name := by
  fun_induction codePoints name with
  | case1 => simp at member
  | case2 first =>
      rw [List.mem_singleton.mp member]
      exact List.mem_singleton_self _
  | case3 first second rest paired induction =>
      rw [Bool.and_eq_true, isHighSurrogate_iff, isLowSurrogate_iff] at paired
      rcases List.mem_cons.mp member with rfl | member
      · omega
      · rcases List.mem_cons.mp member with rfl | member
        · omega
        · exact List.mem_cons_of_mem _ (induction member)
  | case4 first second rest unpaired induction =>
      rcases List.mem_cons.mp member with rfl | member
      · exact List.mem_cons_self
      · exact List.mem_cons_of_mem _ (induction member)

/-- A character that is its own upper case and in no device name. -/
theorem reserved_absent (character : Char)
    (reserved : isReservedFilenameStem upperCase.map stem = true)
    (ascii : character.toNat < 0x80)
    (kept : upperCase.map character = [character])
    (absent : ∀ device ∈ Sanitize.deviceNames, character ∉ device) :
    UInt16.ofNat character.toNat ∉ stem := by
  intro member
  obtain ⟨device, listed, same⟩ := reserved_device reserved
  have code : (UInt16.ofNat character.toNat).toNat = character.toNat :=
    unit_toNat (by omega)
  have point := mem_codePoints member (by omega)
  rw [code] at point
  have inside : UInt16.ofNat character.toNat ∈
      toUpperCase upperCase.map stem := by
    apply List.mem_flatMap.mpr
    refine ⟨_, point, ?_⟩
    have valid : character.toNat.isValidChar := character.valid
    rw [if_pos valid, Char.ofNat_toNat, kept, encode_cons, encode_nil,
      List.append_nil, encodePoint_small (by omega)]
    exact List.mem_singleton_self _
  rw [same, mem_encode_iff (by omega)] at inside
  exact absent device listed inside

/-- No device name holds a dot, a space or an underscore, or is empty. -/
theorem reserved_plain
    (reserved : isReservedFilenameStem upperCase.map stem = true) :
    stem ≠ [] ∧ dot ∉ stem ∧ space ∉ stem ∧ (0x5f : UInt16) ∉ stem := by
  have plain := Sanitize.deviceNames_plain
  refine ⟨?_, ?_, ?_, ?_⟩
  · intro empty
    obtain ⟨device, listed, same⟩ := reserved_device reserved
    rw [empty] at same
    have nothing := encode_eq_nil.mp same.symm
    have some' := (plain device listed).1
    rw [nothing] at some'
    exact Nat.lt_irrefl 0 some'
  · exact reserved_absent '.' reserved (by decide)
      upperCase.dot fun device listed => (plain device listed).2.2.1
  · exact reserved_absent ' ' reserved (by decide)
      upperCase.space fun device listed => (plain device listed).2.2.2.1
  · exact reserved_absent '_' reserved (by decide)
      upperCase.underscore fun device listed => (plain device listed).2.2.2.2

end Reserved

/-! ## The cut of a long name -/

/-- The text that a cut shortens, its budget, and the extension behind it. -/
structure Cutting where
  text : List UInt16
  budget : Nat
  tail : List UInt16

def cutting (name : List UInt16) : Cutting :=
  match lastIndexOf dot name with
  | none => ⟨name, maxComponentBytes, []⟩
  | some index =>
      let extension := name.drop (index + 1)
      if 0 < index ∧ 0 < byteLength extension ∧
          byteLength extension ≤ maxExtensionBytes then
        ⟨name.take index, maxComponentBytes - byteLength extension - 1,
          dot :: extension⟩
      else ⟨name, maxComponentBytes, []⟩

/-- What the cut keeps in front of the extension. -/
def kept (name : List UInt16) : List UInt16 :=
  trimEnd (truncateUtf8 (cutting name).text (cutting name).budget)

theorem clampFilenameComponent_eq (name : List UInt16) :
    clampFilenameComponent name =
      if byteLength name ≤ maxComponentBytes then name
      else kept name ++ (cutting name).tail := by
  unfold clampFilenameComponent kept cutting
  split
  · rfl
  · cases lastIndexOf dot name with
    | none => exact (List.append_nil _).symm
    | some index =>
        dsimp only
        split
        · simp [units, encode, encodePoint, dot]
        · exact (List.append_nil _).symm

/-- The parts of a cut make up the name. -/
theorem cutting_parts (name : List UInt16) :
    (cutting name).text ++ (cutting name).tail = name ∧
      ((cutting name).tail = [] ∧ (cutting name).budget = 254 ∨
        ∃ extension, (cutting name).tail = dot :: extension ∧
          extension ≠ [] ∧ dot ∉ extension ∧
          byteLength extension ≤ 24 ∧
          (cutting name).budget = 254 - byteLength extension - 1) := by
  unfold cutting
  by_cases member : dot ∈ name
  · obtain ⟨front, back, same, absent⟩ := Offset.eq_append_last member
    have found : lastIndexOf dot name = some front.length := by
      rw [same, lastIndexOf, Offset.lastOffset_append _ _ absent,
        Offset.size_one]
    have after : name.drop (front.length + 1) = back := by
      rw [same, ← List.drop_drop, List.drop_left]
      rfl
    have before : name.take front.length = front := by
      rw [same, List.take_left]
    rw [found]
    dsimp only
    rw [after, before]
    split
    · next wide =>
        refine ⟨same.symm, Or.inr ⟨back, rfl, ?_, absent, wide.2.2, rfl⟩⟩
        intro empty
        rw [empty] at wide
        exact Nat.lt_irrefl 0 wide.2.1
    · exact ⟨List.append_nil _, Or.inl ⟨rfl, rfl⟩⟩
  · have missing : lastIndexOf dot name = none :=
      Offset.lastOffset_none _ member
    rw [missing]
    exact ⟨List.append_nil _, Or.inl ⟨rfl, rfl⟩⟩

theorem truncateUtf8_spec (value : List UInt16) (maxBytes : Nat) :
    byteLength (truncateUtf8 value maxBytes) ≤ maxBytes ∧
      truncateUtf8 value maxBytes <+: value ∧
      ∀ front, front <+: value → byteLength front ≤ maxBytes →
        front <+: truncateUtf8 value maxBytes := by
  have reaches : ∀ start, start ≤ value.length →
      let stop := Offset.countDown
        (fun stop => byteLength (value.take stop) ≤ maxBytes) start
      byteLength (value.take stop) ≤ maxBytes ∧ ∀ position ≤ start,
        byteLength (value.take position) ≤ maxBytes → position ≤ stop := by
    intro start bound
    induction start with
    | zero =>
        refine ⟨Nat.zero_le _, ?_⟩
        intro position below _
        exact below
    | succ start induction =>
        obtain ⟨within, most⟩ := induction (Nat.le_of_succ_le bound)
        simp only [Offset.countDown]
        split
        · next fits =>
            exact ⟨of_decide_eq_true fits, fun position below _ => below⟩
        · next over' =>
            refine ⟨within, ?_⟩
            intro position below fits
            rcases Nat.lt_or_eq_of_le below with less | same
            · exact most position (Nat.le_of_lt_succ less) fits
            · exact absurd (decide_eq_true (same ▸ fits)) over'
  obtain ⟨within, most⟩ := reaches value.length (Nat.le_refl _)
  refine ⟨within, List.take_prefix _ _, ?_⟩
  intro front starts fits
  obtain ⟨rest, same⟩ := starts
  have here := most front.length (by simp [← same])
    (by rw [← same, List.take_left]; exact fits)
  rw [truncateUtf8, List.prefix_take_iff]
  exact ⟨⟨rest, same⟩, here⟩

theorem trimEnd_starts (name : List UInt16) : trimEnd name <+: name :=
  List.rdropWhile_prefix _ _

theorem trimEnd_idem (name : List UInt16) :
    trimEnd (trimEnd name) = trimEnd name :=
  List.rdropWhile_idempotent _ _

theorem byteLength_starts {front name : List UInt16}
    (starts : front <+: name) : byteLength front ≤ byteLength name := by
  obtain ⟨rest, same⟩ := starts
  rw [← same]
  exact byteLength_le_append front rest

theorem kept_starts (name : List UInt16) : kept name <+: name := by
  have parts := (cutting_parts name).1
  have text : (cutting name).text <+: name := ⟨_, parts⟩
  have within := (truncateUtf8_spec (cutting name).text
    (cutting name).budget).2.1
  exact ((trimEnd_starts _).trans within).trans text

theorem byteLength_dot (front rest : List UInt16) :
    byteLength (front ++ dot :: rest) =
      byteLength front + 1 + byteLength rest := by
  have plain : isLowSurrogate dot = false := rfl
  have alone : isHighSurrogate dot = false := rfl
  rw [byteLength_append_plain front plain,
    byteLength_of_codePoints (codePoints_cons_alone alone rest)]
  show byteLength front + (1 + byteLength rest) = _
  omega

theorem clamp_bounded (name : List UInt16) :
    byteLength (clampFilenameComponent name) ≤ 254 := by
  rw [clampFilenameComponent_eq]
  split
  · next short => exact short
  · have within := (truncateUtf8_spec (cutting name).text
      (cutting name).budget).1
    have trimmed := byteLength_starts (trimEnd_starts
      (truncateUtf8 (cutting name).text (cutting name).budget))
    rcases (cutting_parts name).2 with ⟨tail, budget⟩ |
      ⟨extension, tail, -, -, small, budget⟩
    · rw [tail, List.append_nil]
      unfold kept
      omega
    · rw [tail, byteLength_dot]
      unfold kept
      omega

/-! ## Sanitized names -/

/-- All but the stem is as a published name has it. -/
structure Clean (name : List UInt16) : Prop where
  nonempty : name ≠ []
  allowed : ∀ unit ∈ name, isForbiddenFilenameCharacter [unit] = false
  ends : trimEnd name = name
  bounded : byteLength name ≤ 254

/-- The name whose length is still to be bounded. -/
def prepared (upperCase : Char → List Char) (name : List UInt16) :
    List UInt16 :=
  dereserveFilename upperCase (trimEnd (name.map cleanUnit))

/-- The cut of a long name leaves a device name in front of the extension. -/
def Exposes (upperCase : Char → List Char) (name : List UInt16) : Prop :=
  254 < byteLength (prepared upperCase name) ∧
    isReservedFilenameStem upperCase (kept (prepared upperCase name)) = true

instance (upperCase : Char → List Char) (name : List UInt16) :
    Decidable (Exposes upperCase name) :=
  inferInstanceAs (Decidable (_ ∧ _))

theorem sanitizeFinalizeFilename_eq (upperCase : Char → List Char)
    (name : List UInt16) :
    sanitizeFinalizeFilename upperCase name =
      if (clampFilenameComponent (prepared upperCase name)).isEmpty then
        fallbackName
      else clampFilenameComponent (prepared upperCase name) := by
  rw [sanitizeFinalizeFilename, replaced_units]
  rfl

theorem ends_iff (name : List UInt16) : trimEnd name = name ↔
    ∀ last ∈ name.getLast?, last ≠ dot ∧ last ≠ space := by
  unfold trimEnd
  rw [List.rdropWhile_eq_self_iff]
  constructor
  · intro ends last newest
    have nonempty : name ≠ [] := by
      intro empty
      simp [empty] at newest
    have same : name.getLast nonempty = last := by
      rw [List.getLast?_eq_some_getLast nonempty] at newest
      exact Option.some.inj newest
    simpa [same] using ends nonempty
  · intro ends nonempty
    have last := ends _ (List.getLast?_eq_some_getLast nonempty)
    simpa using last

theorem ends_append (front : List UInt16) {back : List UInt16}
    (nonempty : back ≠ []) :
    trimEnd (front ++ back) = front ++ back ↔ trimEnd back = back := by
  rw [ends_iff, ends_iff, List.getLast?_append_of_ne_nil front nonempty]

section Sanitized

variable {upperCase : UpperCase}

theorem prepared_allowed (upperCase : UpperCase) (name : List UInt16) :
    ∀ unit ∈ prepared upperCase.map name,
      isForbiddenFilenameCharacter [unit] = false := by
  have clean : ∀ unit ∈ trimEnd (name.map cleanUnit),
      isForbiddenFilenameCharacter [unit] = false := by
    intro unit member
    obtain ⟨original, -, same⟩ :=
      List.mem_map.mp ((trimEnd_starts _).subset member)
    rw [← same, cleanUnit]
    split
    · rfl
    · next allowed => exact Bool.eq_false_iff.mpr allowed
  intro unit member
  rw [prepared, dereserveFilename_eq] at member
  split at member
  · rcases List.mem_append.mp member with front | rest
    · exact clean unit ((List.takeWhile_prefix _).subset front)
    · rcases List.mem_cons.mp rest with rfl | rest
      · rfl
      · exact clean unit (List.mem_of_mem_drop rest)
  · exact clean unit member

theorem prepared_ends (upperCase : UpperCase) (name : List UInt16) :
    trimEnd (prepared upperCase.map name) = prepared upperCase.map name := by
  rw [prepared, dereserveFilename_eq]
  have ends := trimEnd_idem (name.map cleanUnit)
  generalize trimEnd (name.map cleanUnit) = trimmed at ends ⊢
  split
  · by_cases more : trimmed.drop (stemOf trimmed).length = []
    · rw [more]
      exact trimEnd_concat _ (by decide)
    · have parts := List.take_append_drop (stemOf trimmed).length trimmed
      rw [← parts, ends_append _ more] at ends
      rw [ends_append _ (List.cons_ne_nil _ _),
        ← List.singleton_append, ends_append _ more]
      exact ends
  · exact ends

theorem dot_marked {stem : List UInt16} (absent : dot ∉ stem) :
    dot ∉ stem ++ [0x5f] := by
  intro member
  rcases List.mem_append.mp member with inside | last
  · exact absent inside
  · exact absurd (List.mem_singleton.mp last) (by decide)

theorem prepared_unreserved (upperCase : UpperCase) (name : List UInt16) :
    isReservedFilenameStem upperCase.map
      (stemOf (prepared upperCase.map name)) = false := by
  rw [prepared, dereserveFilename_eq]
  generalize trimEnd (name.map cleanUnit) = trimmed
  split
  · next reserved =>
      rw [← Bool.not_eq_true]
      intro again
      have marked : stemOf (stemOf trimmed ++
          0x5f :: trimmed.drop (stemOf trimmed).length) =
            stemOf trimmed ++ [0x5f] := by
        obtain ⟨absent, whole | ⟨rest, parts⟩⟩ := stemOf_cases trimmed
        · have nothing : trimmed.drop (stemOf trimmed).length = [] := by
            rw [← whole, List.drop_length]
          rw [nothing]
          exact stemOf_absent (dot_marked absent)
        · generalize stemOf trimmed = stem at absent parts ⊢
          subst parts
          have next : stem ++ 0x5f :: (stem ++ dot :: rest).drop stem.length =
              (stem ++ [0x5f]) ++ dot :: rest := by
            simp
          rw [next]
          exact stemOf_append (dot_marked absent) rest
      rw [marked] at again
      exact (reserved_plain again).2.2.2 (by simp)
  · next free => exact Bool.eq_false_iff.mpr free

theorem fallback_clean : Clean fallbackName := by
  constructor
  · decide
  · have all : fallbackName.all
        (fun unit => !isForbiddenFilenameCharacter [unit]) = true := by
      decide
    intro unit member
    simpa using List.all_eq_true.mp all unit member
  · decide
  · decide

theorem sanitized_clean (upperCase : UpperCase) (name : List UInt16) :
    Clean (sanitizeFinalizeFilename upperCase.map name) := by
  rw [sanitizeFinalizeFilename_eq]
  have allowed := prepared_allowed upperCase name
  have ends := prepared_ends upperCase name
  have bounded := clamp_bounded (prepared upperCase.map name)
  generalize prepared upperCase.map name = ready at *
  split
  · exact fallback_clean
  · next nonempty =>
      constructor
      · intro empty
        exact nonempty (List.isEmpty_iff.mpr empty)
      · intro unit member
        apply allowed
        rw [clampFilenameComponent_eq] at member
        split at member
        · exact member
        · rcases List.mem_append.mp member with front | tail
          · exact (kept_starts ready).subset front
          · rw [← (cutting_parts ready).1]
            exact List.mem_append_right _ tail
      · rw [clampFilenameComponent_eq]
        split
        · exact ends
        · obtain ⟨parts, ⟨tail, -⟩ | ⟨extension, tail, some', -, -, -⟩⟩ :=
            cutting_parts ready
          · rw [tail, List.append_nil]
            exact trimEnd_idem _
          · rw [← parts, tail, ends_append _ (List.cons_ne_nil _ _)] at ends
            rw [tail, ends_append _ (List.cons_ne_nil _ _)]
            exact ends
      · exact bounded

/-- Only a cut leaves a reserved stem. -/
theorem sanitized_reserved_iff (upperCase : UpperCase) (name : List UInt16) :
    isReservedFilenameStem upperCase.map
        (stemOf (sanitizeFinalizeFilename upperCase.map name)) = true ↔
      Exposes upperCase.map name := by
  rw [sanitizeFinalizeFilename_eq, Exposes, clampFilenameComponent_eq]
  have free := prepared_unreserved upperCase name
  generalize prepared upperCase.map name = ready at *
  have fallback : isReservedFilenameStem upperCase.map
      (stemOf fallbackName) = false := by
    rw [← Bool.not_eq_true]
    intro reserved
    have few := reserved_points reserved
    have eight : (codePoints (stemOf fallbackName)).length = 8 := by decide
    omega
  by_cases short : byteLength ready ≤ maxComponentBytes
  · have notLong : ¬254 < byteLength ready := Nat.not_lt.mpr short
    simp only [if_pos short, notLong, false_and, iff_false]
    split
    · simp [fallback]
    · simp [free]
  · have long : 254 < byteLength ready := Nat.not_le.mp short
    simp only [if_neg short, long, true_and]
    obtain ⟨restOf, starts⟩ := kept_starts ready
    have tails := (cutting_parts ready).2
    generalize (cutting ready).tail = tail at tails
    have whole : dot ∉ kept ready → stemOf (kept ready ++ tail) =
        kept ready := by
      intro absent
      rcases tails with ⟨none', -⟩ | ⟨extension, some', -⟩
      · rw [none', List.append_nil, stemOf_absent absent]
      · rw [some', stemOf_append absent]
    by_cases absent : dot ∈ kept ready
    · have notReserved : isReservedFilenameStem upperCase.map
          (kept ready) = false := by
        rw [← Bool.not_eq_true]
        intro reserved
        exact (reserved_plain reserved).2.1 absent
      obtain ⟨front, back, same, first⟩ := List.eq_append_cons_of_mem absent
      have stem : stemOf (kept ready ++ tail) = stemOf ready := by
        have left : kept ready ++ tail = front ++ dot :: (back ++ tail) := by
          simp [same]
        have right : ready = front ++ dot :: (back ++ restOf) :=
          starts.symm.trans (by simp [same])
        have of_ready := congrArg stemOf right
        rw [stemOf_append first] at of_ready
        rw [left, stemOf_append first, of_ready]
      rw [notReserved]
      split
      · simp [fallback]
      · simp [stem, free]
    · split
      · next empty =>
          have nothing : kept ready = [] :=
            (List.append_eq_nil_iff.mp (List.isEmpty_iff.mp empty)).1
          rw [nothing, fallback]
          constructor
          · intro wrong
            cases wrong
          · intro reserved
            exact absurd rfl (reserved_plain reserved).1
      · rw [whole absent]

theorem prefix_trimEnd {front value : List UInt16} {unit : UInt16}
    (starts : front ++ [unit] <+: value) (other : unit ≠ dot ∧ unit ≠ space) :
    front ++ [unit] <+: trimEnd value := by
  induction value using List.reverseRecOn with
  | nil => simp at starts
  | append_singleton value last induction =>
      by_cases dropped : last = dot ∨ last = space
      · have shorter : trimEnd (value ++ [last]) = trimEnd value := by
          apply List.rdropWhile_concat_pos
          simpa using dropped
        rw [shorter]
        apply induction
        rcases List.prefix_concat_iff.mp starts with same | inside
        · obtain ⟨-, equal⟩ := List.append_inj' same rfl
          rw [List.cons.inj equal |>.1] at other
          rcases dropped with same | same
          · exact absurd same other.1
          · exact absurd same other.2
        · exact inside
      · have whole : trimEnd (value ++ [last]) = value ++ [last] := by
          apply List.rdropWhile_concat_neg
          simpa using dropped
        rw [whole]
        exact starts

/-- A marked stem outlives every cut. -/
theorem marked_kept {stem : List UInt16} (rest : List UInt16) (absent : dot ∉ stem)
    (small : byteLength stem ≤ 28) :
    (0x5f : UInt16) ∈ kept (stem ++ 0x5f :: rest) := by
  have parts := cutting_parts (stem ++ 0x5f :: rest)
  have starts : stem ++ [0x5f] <+: (cutting (stem ++ 0x5f :: rest)).text := by
    have whole : stem ++ [0x5f] <+: stem ++ 0x5f :: rest :=
      ⟨rest, by simp⟩
    rcases parts with ⟨same, ⟨tail, -⟩ | ⟨extension, tail, -⟩⟩
    · rw [tail, List.append_nil] at same
      rw [same]
      exact whole
    · have text : (cutting (stem ++ 0x5f :: rest)).text <+:
          stem ++ 0x5f :: rest := ⟨_, same⟩
      rcases List.prefix_or_prefix_of_prefix whole text with inside | short
      · exact inside
      · obtain ⟨more, longer⟩ := short
        cases more with
        | nil =>
            rw [← longer, List.append_nil]
        | cons unit more =>
            have next : (cutting (stem ++ 0x5f :: rest)).text ++
                dot :: extension = (cutting (stem ++ 0x5f :: rest)).text ++
                  (unit :: more ++ rest) := by
              rw [← tail, same, ← List.append_assoc, longer]
              simp
            have first := List.append_cancel_left next
            rw [List.cons_append, List.cons.injEq] at first
            have member : dot ∈ stem ++ [0x5f] := by
              rw [← longer, first.1]
              simp
            exact absurd member (dot_marked absent)
  have room : byteLength (stem ++ [0x5f]) ≤
      (cutting (stem ++ 0x5f :: rest)).budget := by
    have length := byteLength_append_ascii stem [0x5f] (by
      intro unit member
      rw [List.mem_singleton.mp member]
      decide)
    rw [List.length_singleton] at length
    rcases parts.2 with ⟨-, budget⟩ | ⟨extension, -, -, -, bound, budget⟩
    · omega
    · omega
  have inside := (truncateUtf8_spec _ _).2.2 _ starts room
  exact (prefix_trimEnd inside (by decide)).subset (by simp)

theorem fixed_iff (upperCase : UpperCase) {name : List UInt16}
    (clean : Clean name) :
    sanitizeFinalizeFilename upperCase.map name = name ↔
      isReservedFilenameStem upperCase.map (stemOf name) = false := by
  have units : name.map cleanUnit = name := by
    have same : ∀ unit ∈ name, cleanUnit unit = id unit := by
      intro unit member
      rw [cleanUnit, clean.allowed unit member]
      rfl
    exact (List.map_congr_left same).trans (List.map_id name)
  constructor
  · intro fixed
    rw [← Bool.not_eq_true]
    intro reserved
    have exposes : Exposes upperCase.map name := by
      rw [← sanitized_reserved_iff upperCase, fixed]
      exact reserved
    have marked : prepared upperCase.map name =
        stemOf name ++ 0x5f :: name.drop (stemOf name).length := by
      rw [prepared, units, clean.ends, dereserveFilename_eq, if_pos reserved]
    have again := exposes.2
    rw [marked] at again
    have inside := marked_kept (name.drop (stemOf name).length)
      (stemOf_cases name).1 (reserved_small reserved)
    exact (reserved_plain again).2.2.2 inside
  · intro free
    have same : prepared upperCase.map name = name := by
      rw [prepared, units, clean.ends, dereserveFilename_eq, free]
      rfl
    have short : byteLength name ≤ maxComponentBytes := clean.bounded
    rw [sanitizeFinalizeFilename_eq, same, clampFilenameComponent_eq,
      if_pos short, if_neg]
    intro empty
    exact clean.nonempty (List.isEmpty_iff.mp empty)

end Sanitized

end Motrix.Finalize.Published
