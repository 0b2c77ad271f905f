import Motrix.Lib.ByteCodec

/-!
# MBP1 canonical byte encodings

Strings are length-prefixed and restricted to ASCII, integers are fixed-width
and range-checked, and binary fields travel as strict base64url.  An input an
encoder cannot represent raises `ProtocolViolationError` instead of wrapping.
-/

namespace Motrix.Bridge

open Motrix.Lib

structure ProtocolViolationError where
  message : String
  deriving DecidableEq, Repr

abbrev Encoding := Except ProtocolViolationError Bytes

def isAscii (s : String) : Bool :=
  s.toList.all fun character => character.toNat ≤ 0x7f

def assertAscii (s field : String) : Except ProtocolViolationError Unit :=
  if isAscii s then .ok ()
  else .error ⟨field ++ " must be ASCII-only"⟩

/-- `utf8ToBytes` on a string whose characters are all ASCII. -/
def asciiBytes (s : String) : Bytes :=
  s.toList.map fun character => UInt8.ofNat character.toNat

def len64LE (n : Nat) : Encoding :=
  if n < 2 ^ 64 then .ok (littleEndian 8 n)
  else .error
    ⟨"len64LE input must be a non-negative integer within uint64 range"⟩

inductive EncInput where
  | bytes (value : Bytes)
  | string (value : String)
  deriving DecidableEq, Repr

def enc : EncInput → Encoding
  | .bytes value => do
      let length ← len64LE value.length
      return length ++ value
  | .string value => do
      assertAscii value "enc(string)"
      let length ← len64LE (asciiBytes value).length
      return length ++ asciiBytes value

def encU32BE (n : Nat) : Encoding :=
  if n < 2 ^ 32 then .ok (bigEndian 4 n)
  else .error
    ⟨"encU32BE input must be a non-negative integer within uint32 range"⟩

def encU64BE (n : Nat) : Encoding :=
  if n < 2 ^ 64 then .ok (bigEndian 8 n)
  else .error
    ⟨"encU64BE input must be a non-negative integer within uint64 range"⟩

def os2ip (bytes : Bytes) : Nat :=
  ofBigEndian bytes

/-! ## Base64url -/

/-- The value of a character of the alphabet `[A-Za-z0-9_-]`. -/
def base64UrlValue (character : Char) : Option Nat :=
  let code := character.toNat
  if 65 ≤ code ∧ code ≤ 90 then some (code - 65)
  else if 97 ≤ code ∧ code ≤ 122 then some (code - 71)
  else if 48 ≤ code ∧ code ≤ 57 then some (code + 4)
  else if code = 45 then some 62
  else if code = 95 then some 63
  else none

def base64UrlDigit (value : Nat) : Char :=
  if value < 26 then Char.ofNat (value + 65)
  else if value < 52 then Char.ofNat (value + 71)
  else if value < 62 then Char.ofNat (value - 4)
  else if value = 62 then '-'
  else '_'

def base64UrlChars : Bytes → List Char
  | [] => []
  | [a] =>
      let value := a.toNat * 16
      [base64UrlDigit (value / 64), base64UrlDigit (value % 64)]
  | [a, b] =>
      let value := (a.toNat * 256 + b.toNat) * 4
      [base64UrlDigit (value / 4096), base64UrlDigit (value / 64 % 64),
        base64UrlDigit (value % 64)]
  | a :: b :: c :: rest =>
      let value := (a.toNat * 256 + b.toNat) * 256 + c.toNat
      base64UrlDigit (value / 262144) :: base64UrlDigit (value / 4096 % 64) ::
        base64UrlDigit (value / 64 % 64) :: base64UrlDigit (value % 64) ::
        base64UrlChars rest

def toBase64Url (bytes : Bytes) : String :=
  String.ofList (base64UrlChars bytes)

/-- `Buffer.from(s, 'base64url')` on characters of the alphabet: leftover
bits of an incomplete group are dropped. -/
def base64UrlBytes : List Nat → Bytes
  | p :: q :: r :: s :: rest =>
      let value := ((p * 64 + q) * 64 + r) * 64 + s
      UInt8.ofNat (value / 65536) :: UInt8.ofNat (value / 256 % 256) ::
        UInt8.ofNat (value % 256) :: base64UrlBytes rest
  | [p, q, r] =>
      let value := ((p * 64 + q) * 64 + r) / 4
      [UInt8.ofNat (value / 256), UInt8.ofNat (value % 256)]
  | [p, q] => [UInt8.ofNat ((p * 64 + q) / 16)]
  | _ => []

/-- The strict decoder: padding, foreign characters, impossible lengths and
non-canonical trailing bits are all rejected. -/
def fromBase64Url (s : String) : Except ProtocolViolationError Bytes :=
  match s.toList.mapM base64UrlValue with
  | none =>
      .error ⟨"base64url input contains padding or non-alphabet characters"⟩
  | some values =>
      if values.length % 4 = 1 then
        .error ⟨"base64url input has invalid length"⟩
      else
        let decoded := base64UrlBytes values
        if toBase64Url decoded ≠ s then
          .error ⟨"base64url input has non-canonical trailing bits"⟩
        else .ok decoded

example : fromBase64Url "TWE" = .ok [0x4d, 0x61] := by decide
example : fromBase64Url "TWF" =
    .error ⟨"base64url input has non-canonical trailing bits"⟩ := by decide

/-! ## Base64url read back -/

theorem base64UrlValue_digit {value : Nat} (bound : value < 64) :
    base64UrlValue (base64UrlDigit value) = some value := by
  have table : ∀ digit < 64,
      base64UrlValue (base64UrlDigit digit) = some digit := by
    decide
  exact table value bound

/-- The values of the characters of `base64UrlChars`. -/
def base64UrlSextets : Bytes → List Nat
  | [] => []
  | [a] =>
      let value := a.toNat * 16
      [value / 64, value % 64]
  | [a, b] =>
      let value := (a.toNat * 256 + b.toNat) * 4
      [value / 4096, value / 64 % 64, value % 64]
  | a :: b :: c :: rest =>
      let value := (a.toNat * 256 + b.toNat) * 256 + c.toNat
      (value / 262144) :: (value / 4096 % 64) :: (value / 64 % 64) ::
        (value % 64) :: base64UrlSextets rest

theorem base64UrlChars_eq_map (bytes : Bytes) :
    base64UrlChars bytes = (base64UrlSextets bytes).map base64UrlDigit := by
  fun_induction base64UrlSextets bytes with
  | case1 => rfl
  | case2 a value => rfl
  | case3 a b value => rfl
  | case4 a b c rest value induction =>
      simp only [base64UrlChars, List.map_cons, induction, value]

theorem base64UrlSextets_lt (bytes : Bytes) :
    ∀ sextet ∈ base64UrlSextets bytes, sextet < 64 := by
  fun_induction base64UrlSextets bytes with
  | case1 => simp
  | case2 a value =>
      have aByte := a.toNat_lt
      simp only [List.mem_cons, List.not_mem_nil, or_false]
      rintro sextet (rfl | rfl) <;> omega
  | case3 a b value =>
      have aByte := a.toNat_lt
      have bByte := b.toNat_lt
      simp only [List.mem_cons, List.not_mem_nil, or_false]
      rintro sextet (rfl | rfl | rfl) <;> omega
  | case4 a b c rest value induction =>
      have aByte := a.toNat_lt
      have bByte := b.toNat_lt
      have cByte := c.toNat_lt
      simp only [List.mem_cons]
      rintro sextet (rfl | rfl | rfl | rfl | later)
      · omega
      · omega
      · omega
      · omega
      · exact induction sextet later

theorem base64UrlBytes_sextets (bytes : Bytes) :
    base64UrlBytes (base64UrlSextets bytes) = bytes := by
  fun_induction base64UrlSextets bytes with
  | case1 => rfl
  | case2 a value =>
      have first : (value / 64 * 64 + value % 64) / 16 = a.toNat := by omega
      simp only [base64UrlBytes, first, UInt8.ofNat_toNat]
  | case3 a b value =>
      have bByte := b.toNat_lt
      have whole : ((value / 4096 * 64 + value / 64 % 64) * 64 + value % 64) /
          4 = a.toNat * 256 + b.toNat := by omega
      have first : (a.toNat * 256 + b.toNat) / 256 = a.toNat := by omega
      have second : (a.toNat * 256 + b.toNat) % 256 = b.toNat := by omega
      simp only [base64UrlBytes, whole, first, second, UInt8.ofNat_toNat]
  | case4 a b c rest value induction =>
      have bByte := b.toNat_lt
      have cByte := c.toNat_lt
      have whole : ((value / 262144 * 64 + value / 4096 % 64) * 64 +
          value / 64 % 64) * 64 + value % 64 = value := by omega
      have first : value / 65536 = a.toNat := by omega
      have second : value / 256 % 256 = b.toNat := by omega
      have third : value % 256 = c.toNat := by omega
      simp only [base64UrlBytes, whole, first, second, third,
        UInt8.ofNat_toNat, induction]

theorem base64UrlSextets_length (bytes : Bytes) :
    (base64UrlSextets bytes).length % 4 ≠ 1 := by
  fun_induction base64UrlSextets bytes with
  | case1 => decide
  | case2 a value => simp
  | case3 a b value => simp
  | case4 a b c rest value induction =>
      simp only [List.length_cons]
      omega

theorem base64UrlValue_mapM {sextets : List Nat}
    (bounds : ∀ sextet ∈ sextets, sextet < 64) :
    (sextets.map base64UrlDigit).mapM base64UrlValue = some sextets := by
  induction sextets with
  | nil => rfl
  | cons sextet rest induction =>
      have tail := induction fun other member =>
        bounds other (List.mem_cons_of_mem sextet member)
      rw [List.map_cons, List.mapM_cons,
        base64UrlValue_digit (bounds sextet List.mem_cons_self), tail]
      rfl

/-- The strict decoder inverts the encoder. -/
theorem fromBase64Url_toBase64Url (bytes : Bytes) :
    fromBase64Url (toBase64Url bytes) = .ok bytes := by
  have values : (toBase64Url bytes).toList.mapM base64UrlValue =
      some (base64UrlSextets bytes) := by
    unfold toBase64Url
    rw [String.toList_ofList, base64UrlChars_eq_map]
    exact base64UrlValue_mapM (base64UrlSextets_lt bytes)
  unfold fromBase64Url
  simp only [values, if_neg (base64UrlSextets_length bytes),
    base64UrlBytes_sextets, ne_eq, not_true_eq_false, if_false]

/-! ## Reading the encodings back -/

private theorem byteOfAscii_toNat {character : Char}
    (ascii : character.toNat ≤ 0x7f) :
    (UInt8.ofNat character.toNat).toNat = character.toNat := by
  simp only [UInt8.toNat_ofNat']
  omega

private theorem asciiChars_injective : ∀ {left right : List Char},
    (∀ character ∈ left, character.toNat ≤ 0x7f) →
    (∀ character ∈ right, character.toNat ≤ 0x7f) →
    left.map (fun character => UInt8.ofNat character.toNat) =
      right.map (fun character => UInt8.ofNat character.toNat) →
    left = right := by
  intro left
  induction left with
  | nil =>
      intro right _ _ same
      simpa using same.symm
  | cons head tail induction =>
      intro right leftAscii rightAscii same
      cases right with
      | nil => simp at same
      | cons otherHead otherTail =>
          simp only [List.map_cons, List.cons.injEq] at same
          have headNat := congrArg UInt8.toNat same.1
          rw [byteOfAscii_toNat (leftAscii head (by simp)),
            byteOfAscii_toNat (rightAscii otherHead (by simp))] at headNat
          have heads : head = otherHead := Char.toNat_inj.mp headNat
          have tails : tail = otherTail :=
            induction (fun c member => leftAscii c (by simp [member]))
              (fun c member => rightAscii c (by simp [member])) same.2
          rw [heads, tails]

theorem asciiBytes_injective {left right : String}
    (leftAscii : isAscii left = true) (rightAscii : isAscii right = true)
    (same : asciiBytes left = asciiBytes right) : left = right := by
  simp only [isAscii, List.all_eq_true, decide_eq_true_eq]
    at leftAscii rightAscii
  exact String.toList_injective
    (asciiChars_injective leftAscii rightAscii same)

theorem len64LE_eq_ok {n : Nat} {encoded : Bytes}
    (success : len64LE n = .ok encoded) :
    n < 2 ^ 64 ∧ encoded = littleEndian 8 n := by
  unfold len64LE at success
  split at success
  · exact ⟨‹_›, by cases success; rfl⟩
  · cases success

theorem encU32BE_eq_ok {n : Nat} {encoded : Bytes}
    (success : encU32BE n = .ok encoded) :
    n < 2 ^ 32 ∧ encoded = bigEndian 4 n := by
  unfold encU32BE at success
  split at success
  · exact ⟨‹_›, by cases success; rfl⟩
  · cases success

theorem encU64BE_eq_ok {n : Nat} {encoded : Bytes}
    (success : encU64BE n = .ok encoded) :
    n < 2 ^ 64 ∧ encoded = bigEndian 8 n := by
  unfold encU64BE at success
  split at success
  · exact ⟨‹_›, by cases success; rfl⟩
  · cases success

/-- The bytes `enc` length-prefixes. -/
def EncInput.payload : EncInput → Bytes
  | .bytes value => value
  | .string value => asciiBytes value

def EncInput.Encodable : EncInput → Prop
  | .bytes value => value.length < 2 ^ 64
  | .string value =>
      isAscii value = true ∧ (asciiBytes value).length < 2 ^ 64

theorem enc_eq_ok {input : EncInput} {encoded : Bytes}
    (success : enc input = .ok encoded) :
    input.Encodable ∧
      encoded = littleEndian 8 input.payload.length ++ input.payload := by
  cases input with
  | bytes value =>
      simp only [enc, bind, Except.bind, pure, Except.pure] at success
      cases prefixed : len64LE value.length with
      | error failure => simp [prefixed] at success
      | ok lengthBytes =>
          obtain ⟨bound, rfl⟩ := len64LE_eq_ok prefixed
          simp only [prefixed, Except.ok.injEq] at success
          exact ⟨bound, success.symm⟩
  | string value =>
      simp only [enc, assertAscii, bind, Except.bind, pure, Except.pure]
        at success
      cases ascii : isAscii value with
      | false => simp [ascii] at success
      | true =>
          cases prefixed : len64LE (asciiBytes value).length with
          | error failure => simp [ascii, prefixed] at success
          | ok lengthBytes =>
              obtain ⟨bound, rfl⟩ := len64LE_eq_ok prefixed
              simp only [ascii, prefixed, if_true, Except.ok.injEq] at success
              exact ⟨⟨ascii, bound⟩, success.symm⟩

/-- The length prefix delimits every `enc` field. -/
theorem lengthPrefixed_selfDelimiting :
    SelfDelimiting (fun payload : Bytes => payload.length < 256 ^ 8)
      (fun payload => littleEndian 8 payload.length ++ payload) :=
  .lengthPrefixed (SelfDelimiting.littleEndian 8)

theorem EncInput.Encodable.payload_bound {input : EncInput}
    (encodable : input.Encodable) : input.payload.length < 256 ^ 8 := by
  cases input with
  | bytes value =>
      simpa [EncInput.payload, EncInput.Encodable] using encodable
  | string value => simpa [EncInput.payload] using encodable.2

/-- A successful `enc` is stripped off the front of a preimage in one way. -/
theorem enc_append_inj {left right : EncInput}
    {leftBytes rightBytes leftRest rightRest : Bytes}
    (leftEncoded : enc left = .ok leftBytes)
    (rightEncoded : enc right = .ok rightBytes)
    (same : leftBytes ++ leftRest = rightBytes ++ rightRest) :
    left.payload = right.payload ∧ leftRest = rightRest := by
  obtain ⟨leftEncodable, rfl⟩ := enc_eq_ok leftEncoded
  obtain ⟨rightEncodable, rfl⟩ := enc_eq_ok rightEncoded
  exact lengthPrefixed_selfDelimiting leftEncodable.payload_bound
    rightEncodable.payload_bound same

theorem encU32BE_append_inj {left right : Nat}
    {leftBytes rightBytes leftRest rightRest : Bytes}
    (leftEncoded : encU32BE left = .ok leftBytes)
    (rightEncoded : encU32BE right = .ok rightBytes)
    (same : leftBytes ++ leftRest = rightBytes ++ rightRest) :
    left = right ∧ leftRest = rightRest := by
  obtain ⟨leftBound, rfl⟩ := encU32BE_eq_ok leftEncoded
  obtain ⟨rightBound, rfl⟩ := encU32BE_eq_ok rightEncoded
  exact SelfDelimiting.bigEndian 4 (by simpa using leftBound)
    (by simpa using rightBound) same

theorem encU64BE_append_inj {left right : Nat}
    {leftBytes rightBytes leftRest rightRest : Bytes}
    (leftEncoded : encU64BE left = .ok leftBytes)
    (rightEncoded : encU64BE right = .ok rightBytes)
    (same : leftBytes ++ leftRest = rightBytes ++ rightRest) :
    left = right ∧ leftRest = rightRest := by
  obtain ⟨leftBound, rfl⟩ := encU64BE_eq_ok leftEncoded
  obtain ⟨rightBound, rfl⟩ := encU64BE_eq_ok rightEncoded
  exact SelfDelimiting.bigEndian 8 (by simpa using leftBound)
    (by simpa using rightBound) same

end Motrix.Bridge
