import Motrix.Bridge.NonceCaps
import Motrix.Bridge.TicketReplay

/-!
# One text for a byte string

The strict decoder accepts the texts of the encoder and no others: a text of
the alphabet whose last symbol leaves its unused bits zero is the encoding of
what it decodes to.
-/

namespace Motrix.Bridge

open Motrix.Lib

/-- The bits of the last symbol that no byte takes are zero, and the length is
one that bytes have. -/
def unusedBitsZero : List Nat → Prop
  | _ :: _ :: _ :: _ :: rest => unusedBitsZero rest
  | [_, _, r] => r % 4 = 0
  | [_, q] => q % 16 = 0
  | [_] => False
  | [] => True

theorem base64UrlDigit_value {character : Char} {value : Nat}
    (read : base64UrlValue character = some value) :
    base64UrlDigit value = character ∧ value < 64 := by
  have text : Char.ofNat character.toNat = character := Char.ofNat_toNat _
  unfold base64UrlValue at read
  dsimp only at read
  split at read
  · cases read
    refine ⟨?_, by omega⟩
    rw [base64UrlDigit, if_pos (by omega), Nat.sub_add_cancel (by omega)]
    exact text
  · split at read
    · cases read
      refine ⟨?_, by omega⟩
      rw [base64UrlDigit, if_neg (by omega), if_pos (by omega),
        Nat.sub_add_cancel (by omega)]
      exact text
    · split at read
      · cases read
        refine ⟨?_, by omega⟩
        rw [base64UrlDigit, if_neg (by omega), if_neg (by omega),
          if_pos (by omega), Nat.add_sub_cancel]
        exact text
      · split at read
        · rename_i dash
          cases read
          exact ⟨by rw [← text, dash]; rfl, by decide⟩
        · split at read
          · rename_i line
            cases read
            exact ⟨by rw [← text, line]; rfl, by decide⟩
          · cases read

theorem base64UrlDigits_mapM {characters : List Char} {values : List Nat}
    (read : characters.mapM base64UrlValue = some values) :
    values.map base64UrlDigit = characters ∧
      values.length = characters.length ∧ ∀ value ∈ values, value < 64 := by
  induction characters generalizing values with
  | nil =>
      cases read
      exact ⟨rfl, rfl, fun _ inside => by cases inside⟩
  | cons character rest induction =>
      rw [List.mapM_cons] at read
      cases first : base64UrlValue character with
      | none =>
          rw [first] at read
          cases read
      | some value =>
          cases later : rest.mapM base64UrlValue with
          | none =>
              rw [first, later] at read
              cases read
          | some others =>
              rw [first, later] at read
              cases read
              obtain ⟨text, bound⟩ := base64UrlDigit_value first
              obtain ⟨texts, length, bounds⟩ := induction later
              refine ⟨?_, congrArg (· + 1) length, ?_⟩
              · rw [List.map_cons, text, texts]
              · intro other inside
                rcases List.mem_cons.mp inside with same | member
                · exact same ▸ bound
                · exact bounds other member

/-- Only the empty text has canonical symbols and no group of them. -/
theorem unusedBitsZero_short {values : List Nat}
    (unused : unusedBitsZero values)
    (groups : ∀ p q r s rest, values = p :: q :: r :: s :: rest → False)
    (triple : ∀ p q r, values = [p, q, r] → False)
    (pair : ∀ p q, values = [p, q] → False) : values = [] := by
  rcases values with _ | ⟨p, _ | ⟨q, _ | ⟨r, _ | ⟨s, rest⟩⟩⟩⟩
  · rfl
  · exact unused.elim
  · exact (pair p q rfl).elim
  · exact (triple p q r rfl).elim
  · exact (groups p q r s rest rfl).elim

/-- The encoder reads back what the decoder made of canonical symbols. -/
theorem base64UrlSextets_bytes {values : List Nat}
    (bounds : ∀ value ∈ values, value < 64)
    (unused : unusedBitsZero values) :
    base64UrlSextets (base64UrlBytes values) = values := by
  fun_induction base64UrlBytes values with
  | case1 p q r s rest value induction =>
      have bound : ∀ other ∈ [p, q, r, s], other < 64 := fun other inside =>
        bounds other (List.mem_append_left rest inside)
      simp only [List.mem_cons, List.not_mem_nil, or_false, forall_eq_or_imp,
        forall_eq] at bound
      obtain ⟨pBound, qBound, rBound, sBound⟩ := bound
      have tail := induction
        (fun other inside => bounds other (List.mem_append_right [p, q, r, s]
          inside)) unused
      have whole : (value / 65536 * 256 + value / 256 % 256) * 256 +
          value % 256 = value := by omega
      have first : (UInt8.ofNat (value / 65536)).toNat = value / 65536 := by
        rw [UInt8.toNat_ofNat']
        omega
      have second : (UInt8.ofNat (value / 256 % 256)).toNat =
          value / 256 % 256 := by
        rw [UInt8.toNat_ofNat']
        omega
      have third : (UInt8.ofNat (value % 256)).toNat = value % 256 := by
        rw [UInt8.toNat_ofNat']
        omega
      simp only [base64UrlSextets, first, second, third, whole, tail,
        List.cons.injEq, and_true]
      omega
  | case2 p q r value =>
      simp only [List.mem_cons, List.not_mem_nil, or_false, forall_eq_or_imp,
        forall_eq] at bounds
      obtain ⟨pBound, qBound, rBound⟩ := bounds
      have zero : r % 4 = 0 := unused
      have first : (UInt8.ofNat (value / 256)).toNat = value / 256 := by
        rw [UInt8.toNat_ofNat']
        omega
      have second : (UInt8.ofNat (value % 256)).toNat = value % 256 := by
        rw [UInt8.toNat_ofNat']
        omega
      simp only [base64UrlSextets, first, second, List.cons.injEq, and_true]
      omega
  | case3 p q =>
      simp only [List.mem_cons, List.not_mem_nil, or_false, forall_eq_or_imp,
        forall_eq] at bounds
      obtain ⟨pBound, qBound⟩ := bounds
      have zero : q % 16 = 0 := unused
      have first : (UInt8.ofNat ((p * 64 + q) / 16)).toNat =
          (p * 64 + q) / 16 := by
        rw [UInt8.toNat_ofNat']
        omega
      simp only [base64UrlSextets, first, List.cons.injEq, and_true]
      omega
  | case4 values groups triple pair =>
      rw [unusedBitsZero_short unused groups triple pair]
      rfl

theorem base64UrlBytes_length {values : List Nat}
    (unused : unusedBitsZero values) :
    (base64UrlBytes values).length = values.length * 3 / 4 := by
  fun_induction base64UrlBytes values with
  | case1 p q r s rest value induction =>
      simp only [List.length_cons, induction unused]
      omega
  | case2 p q r value => simp
  | case3 p q => simp
  | case4 values groups triple pair =>
      rw [unusedBitsZero_short unused groups triple pair]
      rfl

/-! ## Decoding -/

theorem toBase64Url_bytes {text : String} {values : List Nat}
    (read : text.toList.mapM base64UrlValue = some values)
    (unused : unusedBitsZero values) :
    toBase64Url (base64UrlBytes values) = text := by
  obtain ⟨characters, -, bounds⟩ := base64UrlDigits_mapM read
  unfold toBase64Url
  rw [base64UrlChars_eq_map, base64UrlSextets_bytes bounds unused, characters,
    String.ofList_toList]

theorem fromBase64Url_eq_ok_iff (text : String) (bytes : Bytes) :
    fromBase64Url text = .ok bytes ↔ toBase64Url bytes = text := by
  constructor
  · exact fromBase64Url_canonical
  · intro encoded
    rw [← encoded]
    exact fromBase64Url_toBase64Url bytes

theorem toBase64Url_injective {left right : Bytes}
    (same : toBase64Url left = toBase64Url right) : left = right := by
  have decoded := fromBase64Url_toBase64Url left
  rw [same, fromBase64Url_toBase64Url] at decoded
  exact (Except.ok.inj decoded).symm

/-! ## Pairing nonces -/

namespace Nonce

/-- Two symbols past whole groups, the last of them with its unused bits
zero. -/
theorem unusedBitsZero_concat {front : List Nat} {last : Nat}
    (length : front.length % 4 = 1) (zero : last % 16 = 0) :
    unusedBitsZero (front ++ [last]) := by
  fun_induction unusedBitsZero front with
  | case1 p q r s rest induction =>
      simp only [List.length_cons] at length
      exact induction (by omega)
  | case2 p q r => cases length
  | case3 p q => cases length
  | case4 p => exact zero
  | case5 => cases length

theorem base64UrlValue_two_bits {character : Char}
    (listed : ['A', 'Q', 'g', 'w'].contains character = true) :
    ∃ value, base64UrlValue character = some value ∧ value % 16 = 0 := by
  simp only [List.contains_cons, List.contains_nil, Bool.or_false,
    Bool.or_eq_true, beq_iff_eq] at listed
  rcases listed with rfl | rfl | rfl | rfl
  · exact ⟨0, by decide, by decide⟩
  · exact ⟨16, by decide, by decide⟩
  · exact ⟨32, by decide, by decide⟩
  · exact ⟨48, by decide, by decide⟩

theorem mapM_concat {front : List Char} {last : Char} {values : List Nat}
    {value : Nat} (reads : front.mapM base64UrlValue = some values)
    (read : base64UrlValue last = some value) :
    (front ++ [last]).mapM base64UrlValue = some (values ++ [value]) := by
  rw [List.mapM_append, reads, List.mapM_cons, read]
  rfl

theorem mapM_of_alphabet {characters : List Char}
    (alphabet : ∀ character ∈ characters,
      (base64UrlValue character).isSome = true) :
    ∃ values, characters.mapM base64UrlValue = some values := by
  induction characters with
  | nil => exact ⟨[], rfl⟩
  | cons character rest induction =>
      obtain ⟨value, read⟩ := Option.isSome_iff_exists.mp
        (alphabet character List.mem_cons_self)
      obtain ⟨values, reads⟩ := induction fun other inside =>
        alphabet other (List.mem_cons_of_mem character inside)
      refine ⟨value :: values, ?_⟩
      rw [List.mapM_cons, read, reads]
      rfl

/-- A canonical nonce text encodes 16 bytes. -/
theorem encodes_of_isCanonical {text : String}
    (canonical : isCanonicalMbp1PairNonce text = true) :
    ∃ nonce : NonceBytes, toBase64Url nonce.1 = text := by
  unfold isCanonicalMbp1PairNonce at canonical
  simp only [Bool.and_eq_true, decide_eq_true_eq, List.all_eq_true] at canonical
  obtain ⟨⟨length, alphabet⟩, listed⟩ := canonical
  obtain ⟨front, last, split⟩ : ∃ front last, text.toList = front ++ [last] := by
    have filled : text.toList ≠ [] := by
      intro empty
      rw [empty] at length
      cases length
    exact ⟨_, _, (List.dropLast_concat_getLast filled).symm⟩
  rw [split] at length alphabet listed
  rw [List.length_append, List.length_singleton] at length
  have frontLength : front.length = 21 := by omega
  rw [← frontLength, List.take_left] at alphabet
  rw [List.getLastD_concat] at listed
  obtain ⟨values, reads⟩ := mapM_of_alphabet alphabet
  obtain ⟨value, read, zero⟩ := base64UrlValue_two_bits listed
  obtain ⟨-, valuesLength, -⟩ := base64UrlDigits_mapM reads
  have unused : unusedBitsZero (values ++ [value]) :=
    unusedBitsZero_concat (by rw [valuesLength, frontLength]) zero
  have whole : text.toList.mapM base64UrlValue = some (values ++ [value]) := by
    rw [split]
    exact mapM_concat reads read
  refine ⟨⟨base64UrlBytes (values ++ [value]), ?_⟩,
    toBase64Url_bytes whole unused⟩
  rw [base64UrlBytes_length unused, List.length_append, valuesLength,
    frontLength, List.length_singleton]
  decide

theorem isCanonicalMbp1PairNonce_iff (text : String) :
    isCanonicalMbp1PairNonce text = true ↔
      ∃ nonce : NonceBytes, toBase64Url nonce.1 = text := by
  constructor
  · exact encodes_of_isCanonical
  · rintro ⟨nonce, encoded⟩
    rw [← encoded]
    exact toBase64Url_isCanonical nonce

end Nonce

/-- A text decodes to bytes exactly if it is their encoding, and the canonical
nonces are the encodings of 16 bytes, one text for each of them. -/
theorem base64Url_canonical :
    (∀ text bytes, fromBase64Url text = .ok bytes ↔
      toBase64Url bytes = text) ∧
    (∀ text, Nonce.isCanonicalMbp1PairNonce text = true ↔
      ∃ nonce : Nonce.NonceBytes, toBase64Url nonce.1 = text) ∧
    (∀ left right : Bytes, toBase64Url left = toBase64Url right →
      left = right) :=
  ⟨fromBase64Url_eq_ok_iff, Nonce.isCanonicalMbp1PairNonce_iff,
    fun _ _ same => toBase64Url_injective same⟩

end Motrix.Bridge
