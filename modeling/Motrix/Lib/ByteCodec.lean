import Mathlib.Data.List.Induction
import Mathlib.Tactic.Ring
import Mathlib.Data.List.Basic

/-!
# Fixed-width and self-delimiting byte encodings

An encoding is self-delimiting when it can be read off the front of a longer
byte string in only one way.  Concatenations of self-delimiting encodings are
injective, which is what length-prefixed protocol preimages rely on.
-/

namespace Motrix.Lib

abbrev Bytes := List UInt8

/-- The `width` low-order base-256 digits of `value`, least significant
first. -/
def littleEndian : Nat → Nat → Bytes
  | 0, _ => []
  | width + 1, value =>
      UInt8.ofNat (value % 256) :: littleEndian width (value / 256)

/-- The same digits, most significant first. -/
def bigEndian (width value : Nat) : Bytes :=
  (littleEndian width value).reverse

/-- Base-256 value of a byte string, most significant byte first. -/
def ofBigEndian (bytes : Bytes) : Nat :=
  bytes.foldl (fun value byte => value * 256 + byte.toNat) 0

@[simp] theorem littleEndian_length (width value : Nat) :
    (littleEndian width value).length = width := by
  induction width generalizing value with
  | zero => rfl
  | succ width induction => simp [littleEndian, induction]

@[simp] theorem bigEndian_length (width value : Nat) :
    (bigEndian width value).length = width := by
  simp [bigEndian]

private theorem ofNat_mod_toNat (value : Nat) :
    (UInt8.ofNat (value % 256)).toNat = value % 256 := by
  have bound : value % 256 < 256 := Nat.mod_lt _ (by decide)
  simp

theorem littleEndian_injective {width left right : Nat}
    (leftBound : left < 256 ^ width) (rightBound : right < 256 ^ width)
    (same : littleEndian width left = littleEndian width right) :
    left = right := by
  induction width generalizing left right with
  | zero =>
      simp only [pow_zero, Nat.lt_one_iff] at leftBound rightBound
      rw [leftBound, rightBound]
  | succ width induction =>
      simp only [littleEndian, List.cons.injEq] at same
      have digit : left % 256 = right % 256 := by
        have equality := congrArg UInt8.toNat same.1
        rwa [ofNat_mod_toNat, ofNat_mod_toNat] at equality
      have quotient : left / 256 = right / 256 := by
        refine induction ?_ ?_ same.2
        · rw [pow_succ] at leftBound
          exact Nat.div_lt_of_lt_mul (by rwa [Nat.mul_comm] at leftBound)
        · rw [pow_succ] at rightBound
          exact Nat.div_lt_of_lt_mul (by rwa [Nat.mul_comm] at rightBound)
      omega

theorem bigEndian_injective {width left right : Nat}
    (leftBound : left < 256 ^ width) (rightBound : right < 256 ^ width)
    (same : bigEndian width left = bigEndian width right) :
    left = right :=
  littleEndian_injective leftBound rightBound (List.reverse_inj.mp same)

theorem ofBigEndian_append_singleton (bytes : Bytes) (byte : UInt8) :
    ofBigEndian (bytes ++ [byte]) = ofBigEndian bytes * 256 + byte.toNat := by
  simp [ofBigEndian]

/-- Reading back a fixed-width big-endian value. -/
theorem ofBigEndian_bigEndian {width value : Nat}
    (bound : value < 256 ^ width) :
    ofBigEndian (bigEndian width value) = value := by
  induction width generalizing value with
  | zero =>
      simp only [pow_zero, Nat.lt_one_iff] at bound
      subst bound
      rfl
  | succ width induction =>
      have quotientBound : value / 256 < 256 ^ width := by
        rw [pow_succ, Nat.mul_comm] at bound
        exact Nat.div_lt_of_lt_mul bound
      have rest : ofBigEndian (bigEndian width (value / 256)) = value / 256 :=
        induction quotientBound
      simp only [bigEndian] at rest
      rw [bigEndian, littleEndian, List.reverse_cons,
        ofBigEndian_append_singleton, rest, ofNat_mod_toNat]
      omega

/-- Every byte string is the big-endian encoding of its own value. -/
theorem bigEndian_ofBigEndian (bytes : Bytes) :
    bigEndian bytes.length (ofBigEndian bytes) = bytes := by
  induction bytes using List.reverseRecOn with
  | nil => rfl
  | append_singleton bytes byte induction =>
      have byteBound := byte.toNat_lt
      have digit :
          (ofBigEndian bytes * 256 + byte.toNat) % 256 = byte.toNat := by
        omega
      have quotient :
          (ofBigEndian bytes * 256 + byte.toNat) / 256 =
            ofBigEndian bytes := by
        omega
      simp only [bigEndian] at induction
      rw [ofBigEndian_append_singleton, List.length_append,
        List.length_singleton, bigEndian, littleEndian, List.reverse_cons,
        digit, quotient, induction, UInt8.ofNat_toNat]

/-- `encode` restricted to `domain` can be stripped off the front of a byte
string in only one way. -/
def SelfDelimiting {α : Type*} (domain : α → Prop) (encode : α → Bytes) :
    Prop :=
  ∀ ⦃left right : α⦄, domain left → domain right →
    ∀ ⦃leftRest rightRest : Bytes⦄,
      encode left ++ leftRest = encode right ++ rightRest →
        left = right ∧ leftRest = rightRest

namespace SelfDelimiting

/-- Fixed-width injective encodings need no delimiter. -/
theorem of_fixedWidth {α : Type*} {domain : α → Prop} {encode : α → Bytes}
    {width : Nat} (fixed : ∀ value, (encode value).length = width)
    (injective : ∀ ⦃left right⦄, domain left → domain right →
      encode left = encode right → left = right) :
    SelfDelimiting domain encode := by
  intro left right leftDomain rightDomain leftRest rightRest same
  have widths : (encode left).length = (encode right).length := by
    rw [fixed left, fixed right]
  obtain ⟨heads, tails⟩ := List.append_inj same widths
  exact ⟨injective leftDomain rightDomain heads, tails⟩

theorem bigEndian (width : Nat) :
    SelfDelimiting (fun value => value < 256 ^ width)
      (Lib.bigEndian width) :=
  of_fixedWidth (fun value => bigEndian_length width value)
    fun _ _ leftBound rightBound same =>
      bigEndian_injective leftBound rightBound same

theorem littleEndian (width : Nat) :
    SelfDelimiting (fun value => value < 256 ^ width)
      (Lib.littleEndian width) :=
  of_fixedWidth (fun value => littleEndian_length width value)
    fun _ _ leftBound rightBound same =>
      littleEndian_injective leftBound rightBound same

/-- A self-delimiting length in front of a payload delimits the payload. -/
theorem lengthPrefixed {lengthCode : Nat → Bytes} {bound : Nat → Prop}
    (code : SelfDelimiting bound lengthCode) :
    SelfDelimiting (fun payload : Bytes => bound payload.length)
      (fun payload => lengthCode payload.length ++ payload) := by
  intro left right leftBound rightBound leftRest rightRest same
  simp only [List.append_assoc] at same
  obtain ⟨lengths, bodies⟩ := code leftBound rightBound same
  exact List.append_inj bodies lengths

end SelfDelimiting

end Motrix.Lib

/-!
# The bytes of a string

A string is encoded character by character; an ASCII character is the one byte
of its code, and only ASCII characters have all their bytes below `0x80`.
-/

namespace Motrix.Lib

private theorem byteArray_toList_loop (bytes : ByteArray) (index : Nat)
    (read : List UInt8) :
    ByteArray.toList.loop bytes index read =
      read.reverse ++ bytes.data.toList.drop index := by
  fun_induction ByteArray.toList.loop bytes index read with
  | case1 index read inside induction =>
      have bound : index < bytes.data.toList.length := by simpa using inside
      rw [induction, List.drop_eq_getElem_cons bound]
      have entry : bytes.get! index = bytes.data.toList[index] := by
        rw [Array.getElem_toList]
        exact getElem!_pos bytes.data index inside
      simp [entry]
  | case2 index read outside =>
      have bound : bytes.data.toList.length ≤ index := by simpa using outside
      rw [List.drop_eq_nil_of_le bound, List.append_nil]

theorem byteArray_toList (bytes : ByteArray) :
    bytes.toList = bytes.data.toList := by
  unfold ByteArray.toList
  rw [byteArray_toList_loop]
  simp

theorem toUTF8_toList (s : String) :
    s.toUTF8.toList = s.toList.flatMap String.utf8EncodeChar := by
  rw [byteArray_toList, String.toUTF8_eq_toByteArray,
    ← String.utf8Encode_toList]
  simp [List.utf8Encode]

theorem utf8EncodeChar_ascii {character : Char}
    (ascii : character.toNat ≤ 0x7f) :
    String.utf8EncodeChar character = [UInt8.ofNat character.toNat] :=
  if_pos ascii

/-- A character beyond ASCII starts with a byte from `0x80` on. -/
theorem ascii_of_utf8EncodeChar {character : Char}
    (bytes : ∀ byte ∈ String.utf8EncodeChar character, byte < 0x80) :
    character.toNat ≤ 0x7f := by
  by_contra beyond
  have code : ¬ character.val.toNat ≤ 0x7f := beyond
  have notLess (lead : Nat) (range : 0x80 ≤ lead ∧ lead < 0x100) :
      ¬ UInt8.ofNat lead < 0x80 := by
    rw [UInt8.lt_iff_toNat_lt, UInt8.toNat_ofNat']
    have value : lead % 2 ^ 8 = lead := Nat.mod_eq_of_lt range.2
    have limit : (0x80 : UInt8).toNat = 0x80 := rfl
    omega
  unfold String.utf8EncodeChar at bytes
  simp only [if_neg code] at bytes
  split at bytes
  · apply notLess _ _ (bytes _ List.mem_cons_self)
    omega
  · split at bytes
    · apply notLess _ _ (bytes _ List.mem_cons_self)
      omega
    · apply notLess _ _ (bytes _ List.mem_cons_self)
      omega

theorem flatMap_utf8EncodeChar_ascii {characters : List Char}
    (ascii : ∀ character ∈ characters, character.toNat ≤ 0x7f) :
    characters.flatMap String.utf8EncodeChar =
      characters.map fun character => UInt8.ofNat character.toNat := by
  induction characters with
  | nil => rfl
  | cons character rest induction =>
      have tail := induction fun other member =>
        ascii other (List.mem_cons_of_mem character member)
      rw [List.flatMap_cons, List.map_cons, tail,
        utf8EncodeChar_ascii (ascii character List.mem_cons_self)]
      rfl

end Motrix.Lib
