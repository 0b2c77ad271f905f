import Mathlib.Data.List.Basic
import Motrix.Lib.Offset

/-!
# Strings of UTF-16 code units

A string of code units is read as code points; a surrogate that has no partner
is read as a code point of its own.  The units of a text of characters are read
back as its characters, whatever units follow.
-/

namespace Motrix.Lib.Utf16

def isHighSurrogate (unit : UInt16) : Bool :=
  0xD800 ≤ unit && unit ≤ 0xDBFF

def isLowSurrogate (unit : UInt16) : Bool :=
  0xDC00 ≤ unit && unit ≤ 0xDFFF

def highSurrogate (point : Nat) : UInt16 :=
  UInt16.ofNat (0xD800 + (point - 0x10000) / 0x400)

def lowSurrogate (point : Nat) : UInt16 :=
  UInt16.ofNat (0xDC00 + (point - 0x10000) % 0x400)

def encodePoint (point : Nat) : List UInt16 :=
  if point < 0x10000 then
    [UInt16.ofNat point]
  else
    [highSurrogate point, lowSurrogate point]

def encode (text : List Char) : List UInt16 :=
  text.flatMap fun character => encodePoint character.toNat

def codePoints : List UInt16 → List Nat
  | [] => []
  | [unit] => [unit.toNat]
  | first :: second :: rest =>
      if isHighSurrogate first && isLowSurrogate second then
        (0x10000 + (first.toNat - 0xD800) * 0x400 +
          (second.toNat - 0xDC00)) :: codePoints rest
      else
        first.toNat :: codePoints (second :: rest)

def pointSize (point : Nat) : Nat :=
  if point < 0x80 then 1
  else if point < 0x800 then 2
  else if point < 0x10000 then 3
  else 4

/-- The bytes of the units as UTF-8, where a surrogate without a partner takes
the three bytes of the replacement character. -/
def byteLength (units : List UInt16) : Nat :=
  Offset.size pointSize (codePoints units)

@[simp] theorem encode_nil : encode [] = [] :=
  rfl

theorem encode_cons (character : Char) (rest : List Char) :
    encode (character :: rest) =
      encodePoint character.toNat ++ encode rest :=
  List.flatMap_cons

theorem encode_append (front back : List Char) :
    encode (front ++ back) = encode front ++ encode back :=
  List.flatMap_append

theorem encode_flatMap {Piece : Type} (text : Piece → List Char)
    (pieces : List Piece) :
    encode (pieces.flatMap text) =
      pieces.flatMap fun piece => encode (text piece) :=
  List.flatMap_assoc

theorem char_toNat_lt (character : Char) : character.toNat < 0x110000 := by
  rcases character.valid with below | above
  · exact Nat.lt_trans below (by decide)
  · exact above.2

/-- The code of a character is no surrogate. -/
theorem char_toNat_scalar (character : Char) :
    character.toNat < 0xD800 ∨ 0xDFFF < character.toNat := by
  rcases character.valid with below | above
  · exact Or.inl below
  · exact Or.inr above.1

theorem unit_toNat {point : Nat} (small : point < 0x10000) :
    (UInt16.ofNat point).toNat = point :=
  UInt16.toNat_ofNat_of_lt' small

theorem isHighSurrogate_iff (unit : UInt16) :
    isHighSurrogate unit = true ↔
      0xD800 ≤ unit.toNat ∧ unit.toNat ≤ 0xDBFF := by
  simp [isHighSurrogate, UInt16.le_iff_toNat_le]

theorem isLowSurrogate_iff (unit : UInt16) :
    isLowSurrogate unit = true ↔
      0xDC00 ≤ unit.toNat ∧ unit.toNat ≤ 0xDFFF := by
  simp [isLowSurrogate, UInt16.le_iff_toNat_le]

section Supplementary

variable {point : Nat}

theorem highSurrogate_toNat (large : 0x10000 ≤ point)
    (valid : point < 0x110000) :
    (highSurrogate point).toNat = 0xD800 + (point - 0x10000) / 0x400 :=
  unit_toNat (by omega)

theorem lowSurrogate_toNat (point : Nat) :
    (lowSurrogate point).toNat = 0xDC00 + (point - 0x10000) % 0x400 :=
  unit_toNat (by omega)

theorem isHighSurrogate_highSurrogate (large : 0x10000 ≤ point)
    (valid : point < 0x110000) :
    isHighSurrogate (highSurrogate point) = true := by
  rw [isHighSurrogate_iff, highSurrogate_toNat large valid]
  omega

theorem isLowSurrogate_lowSurrogate (point : Nat) :
    isLowSurrogate (lowSurrogate point) = true := by
  rw [isLowSurrogate_iff, lowSurrogate_toNat]
  omega

end Supplementary

theorem encodePoint_small {point : Nat} (small : point < 0x10000) :
    encodePoint point = [UInt16.ofNat point] :=
  if_pos small

theorem encodePoint_large {point : Nat} (large : 0x10000 ≤ point) :
    encodePoint point = [highSurrogate point, lowSurrogate point] :=
  if_neg (Nat.not_lt.mpr large)

/-- Both units of a supplementary character are surrogates. -/
theorem surrogate_of_mem_encodePoint {point : Nat} {unit : UInt16}
    (large : 0x10000 ≤ point) (valid : point < 0x110000)
    (member : unit ∈ encodePoint point) :
    0xD800 ≤ unit.toNat ∧ unit.toNat ≤ 0xDFFF := by
  rw [encodePoint_large large, List.mem_pair] at member
  rcases member with rfl | rfl
  · rw [highSurrogate_toNat large valid]
    omega
  · rw [lowSurrogate_toNat]
    omega

theorem mem_encodePoint_iff {wanted : Char} (character : Char)
    (small : wanted.toNat < 0x10000) :
    UInt16.ofNat wanted.toNat ∈ encodePoint character.toNat ↔
      wanted = character := by
  constructor
  · intro member
    by_cases short : character.toNat < 0x10000
    · rw [encodePoint_small short, List.mem_singleton] at member
      have codes := congrArg UInt16.toNat member
      rw [unit_toNat small, unit_toNat short] at codes
      exact Char.toNat_inj.mp codes
    · have surrogate := surrogate_of_mem_encodePoint (by omega)
        (char_toNat_lt character) member
      rw [unit_toNat small] at surrogate
      have scalar := char_toNat_scalar wanted
      omega
  · rintro rfl
    rw [encodePoint_small small]
    exact List.mem_singleton.mpr rfl

theorem mem_encode_iff {wanted : Char} (small : wanted.toNat < 0x10000)
    (text : List Char) :
    UInt16.ofNat wanted.toNat ∈ encode text ↔ wanted ∈ text := by
  unfold encode
  rw [List.mem_flatMap]
  simp only [mem_encodePoint_iff _ small]
  constructor
  · rintro ⟨character, member, rfl⟩
    exact member
  · intro member
    exact ⟨wanted, member, rfl⟩

theorem codePoints_cons_alone {unit : UInt16}
    (plain : isHighSurrogate unit = false) (rest : List UInt16) :
    codePoints (unit :: rest) = unit.toNat :: codePoints rest := by
  cases rest with
  | nil => rfl
  | cons second rest => simp [codePoints, plain]

theorem codePoints_cons_cons_alone {first second : UInt16}
    (unpaired : isLowSurrogate second = false) (rest : List UInt16) :
    codePoints (first :: second :: rest) =
      first.toNat :: codePoints (second :: rest) := by
  simp [codePoints, unpaired]

theorem codePoints_pair {first second : UInt16}
    (high : isHighSurrogate first = true)
    (low : isLowSurrogate second = true) (rest : List UInt16) :
    codePoints (first :: second :: rest) =
      (0x10000 + (first.toNat - 0xD800) * 0x400 +
        (second.toNat - 0xDC00)) :: codePoints rest := by
  rw [codePoints, high, low]
  rfl

/-- The units of a code point that is no surrogate are read back as it. -/
theorem codePoints_encodePoint_append {point : Nat}
    (valid : point < 0x110000)
    (scalar : point < 0xD800 ∨ 0xDFFF < point) (rest : List UInt16) :
    codePoints (encodePoint point ++ rest) = point :: codePoints rest := by
  unfold encodePoint
  by_cases small : point < 0x10000
  · have plain : isHighSurrogate (UInt16.ofNat point) = false := by
      rw [Bool.eq_false_iff, Ne, isHighSurrogate_iff, unit_toNat small]
      omega
    rw [if_pos small, List.singleton_append, codePoints_cons_alone plain,
      unit_toNat small]
  · have large : 0x10000 ≤ point := by omega
    have code : 0x10000 + ((highSurrogate point).toNat - 0xD800) * 0x400 +
        ((lowSurrogate point).toNat - 0xDC00) = point := by
      rw [highSurrogate_toNat large valid, lowSurrogate_toNat]
      omega
    rw [if_neg small, List.cons_append, List.singleton_append,
      codePoints_pair (isHighSurrogate_highSurrogate large valid)
        (isLowSurrogate_lowSurrogate point), code]

theorem codePoints_encode_append (text : List Char) (rest : List UInt16) :
    codePoints (encode text ++ rest) =
      text.map Char.toNat ++ codePoints rest := by
  induction text with
  | nil => rfl
  | cons character text induction =>
      rw [encode_cons, List.append_assoc,
        codePoints_encodePoint_append (char_toNat_lt character)
          (char_toNat_scalar character), induction]
      rfl

theorem codePoints_encode (text : List Char) :
    codePoints (encode text) = text.map Char.toNat := by
  have read := codePoints_encode_append text []
  simpa [codePoints] using read

theorem encode_injective : Function.Injective encode := by
  intro left right same
  have points := congrArg codePoints same
  rw [codePoints_encode, codePoints_encode] at points
  exact List.map_injective_iff.mpr
    (fun _ _ => Char.toNat_inj.mp) points

theorem encode_eq_nil {text : List Char} :
    encode text = [] ↔ text = [] :=
  encode_injective.eq_iff' encode_nil

/-- No text of characters has a surrogate among its code points. -/
theorem not_surrogate_of_encode {units : List UInt16} {text : List Char}
    (same : units = encode text) {point : Nat}
    (member : point ∈ codePoints units) :
    point < 0xD800 ∨ 0xDFFF < point := by
  rw [same, codePoints_encode] at member
  obtain ⟨character, _, rfl⟩ := List.mem_map.mp member
  exact char_toNat_scalar character

theorem pointSize_char (character : Char) :
    pointSize character.toNat = character.utf8Size := by
  have code : character.toNat = character.val.toNat := rfl
  unfold pointSize Char.utf8Size
  simp only [code, UInt32.le_iff_toNat_le]
  simp only [Nat.lt_iff_add_one_le]
  split_ifs <;> simp_all <;> omega

theorem byteLength_encode_append (text : List Char) (rest : List UInt16) :
    byteLength (encode text ++ rest) =
      Offset.size Char.utf8Size text + byteLength rest := by
  have widths : (fun character : Char => pointSize character.toNat) =
      Char.utf8Size :=
    funext pointSize_char
  rw [byteLength, codePoints_encode_append, Offset.size_append,
    Offset.size_map, widths]
  rfl

theorem byteLength_encode (text : List Char) :
    byteLength (encode text) = Offset.size Char.utf8Size text := by
  have length := byteLength_encode_append text []
  rwa [List.append_nil] at length

theorem byteLength_of_codePoints {units rest : List UInt16} {point : Nat}
    (read : codePoints units = point :: codePoints rest) :
    byteLength units = pointSize point + byteLength rest := by
  rw [byteLength, read]
  rfl

theorem pointSize_unit_le (unit : UInt16) : pointSize unit.toNat ≤ 3 := by
  have small : unit.toNat < 0x10000 := unit.toNat_lt
  unfold pointSize
  split_ifs <;> omega

theorem byteLength_singleton (unit : UInt16) :
    byteLength [unit] = pointSize unit.toNat :=
  Nat.add_zero _

theorem pointSize_surrogate {point : Nat} (after : 0x800 ≤ point)
    (before : point < 0x10000) : pointSize point = 3 := by
  unfold pointSize
  split_ifs <;> omega

theorem pointSize_large {point : Nat} (large : 0x10000 ≤ point) :
    pointSize point = 4 := by
  unfold pointSize
  split_ifs <;> omega

theorem pointSize_le_byteLength_cons (unit : UInt16) (rest : List UInt16) :
    pointSize unit.toNat ≤ byteLength (unit :: rest) := by
  cases rest with
  | nil => exact Nat.le_refl _
  | cons second rest =>
      by_cases paired :
          (isHighSurrogate unit && isLowSurrogate second) = true
      · rw [Bool.and_eq_true] at paired
        rw [byteLength_of_codePoints
          (codePoints_pair paired.1 paired.2 rest)]
        have four : pointSize (0x10000 + (unit.toNat - 0xD800) * 0x400 +
            (second.toNat - 0xDC00)) = 4 :=
          pointSize_large (by omega)
        have most := pointSize_unit_le unit
        omega
      · have read : codePoints (unit :: second :: rest) =
            unit.toNat :: codePoints (second :: rest) := by
          rw [codePoints, if_neg paired]
        rw [byteLength_of_codePoints read]
        exact Nat.le_add_right _ _

/-- A string never takes fewer bytes than the units it starts with. -/
theorem byteLength_le_append (front back : List UInt16) :
    byteLength front ≤ byteLength (front ++ back) := by
  fun_induction codePoints front with
  | case1 => exact Nat.zero_le _
  | case2 unit => exact pointSize_le_byteLength_cons unit back
  | case3 first second rest paired induction =>
      rw [Bool.and_eq_true] at paired
      rw [List.cons_append, List.cons_append,
        byteLength_of_codePoints (codePoints_pair paired.1 paired.2 rest),
        byteLength_of_codePoints
          (codePoints_pair paired.1 paired.2 (rest ++ back))]
      exact Nat.add_le_add_left induction _
  | case4 first second rest alone induction =>
      have read (following : List UInt16) :
          codePoints (first :: second :: following) =
            first.toNat :: codePoints (second :: following) := by
        rw [codePoints, if_neg alone]
      rw [List.cons_append, List.cons_append,
        byteLength_of_codePoints (read rest),
        byteLength_of_codePoints (read (rest ++ back))]
      exact Nat.add_le_add_left induction _

end Motrix.Lib.Utf16
