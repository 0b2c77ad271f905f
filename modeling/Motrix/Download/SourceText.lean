import Motrix.Download.SourceAnalysis

/-!
# Written sources

A text that has the form of a URL is the one it is written from, part by part.
Corrections and encodings leave its delimiters and its escapes as they are.
-/

namespace Motrix.DownloadSource

open List Lib Lib.AsciiUnits

/-! ## Parts -/

structure IsScheme (scheme : Text) : Prop where
  letter : ∀ unit ∈ scheme.head?, (isLower unit || isUpper unit) = true
  nonempty : scheme ≠ []
  units : ∀ unit ∈ scheme, isSchemeUnit unit = true

/-- Every part starts with its delimiter and ends before the next one. -/
structure Parts.Delimited (parts : Parts) : Prop where
  authority : ∀ unit ∈ parts.authority, endsAuthority unit = false
  nonempty : parts.authority ≠ []
  rooted : ∀ unit ∈ parts.path.head?, unit = 0x2f
  path : ∀ unit ∈ parts.path, endsPath unit = false
  marked : ∀ unit ∈ parts.query.head?, unit = 0x3f
  query : ∀ unit ∈ parts.query, (unit == 0x23) = false
  hashed : ∀ unit ∈ parts.fragment.head?, unit = 0x23
  fragment : parts.fragment.any isLineTerminator = false

def Parts.behind (parts : Parts) : Text :=
  parts.authority ++ (parts.path ++ (parts.query ++ parts.fragment))

def written (scheme : Text) (parts : Parts) : Text :=
  scheme ++ 0x3a :: 0x2f :: 0x2f :: parts.behind

theorem endsPath_authority {unit : UInt16} (ends : endsPath unit = true) :
    endsAuthority unit = true := by
  simp only [endsPath, endsAuthority, contains_eq_mem, mem_cons, not_mem_nil,
    decide_eq_true_eq] at ends ⊢
  exact .inr ends

theorem head?_append_cases {first second : Text} {unit : UInt16}
    (head : unit ∈ (first ++ second).head?) :
    unit ∈ first.head? ∨ unit ∈ second.head? := by
  cases first with
  | nil => exact .inr head
  | cons => exact .inl head

namespace Parts.Delimited

variable {parts : Parts}

theorem fragment_starts (delimited : parts.Delimited) :
    ∀ unit ∈ parts.fragment.head?, (unit == 0x23) = true := by
  intro unit head
  simpa using delimited.hashed unit head

theorem query_starts (delimited : parts.Delimited) :
    ∀ unit ∈ (parts.query ++ parts.fragment).head?, endsPath unit = true := by
  intro unit head
  rcases head?_append_cases head with head | head
  · rw [delimited.marked unit head]
    rfl
  · rw [delimited.hashed unit head]
    rfl

theorem path_starts (delimited : parts.Delimited) :
    ∀ unit ∈ (parts.path ++ (parts.query ++ parts.fragment)).head?,
      endsAuthority unit = true := by
  intro unit head
  rcases head?_append_cases head with head | head
  · rw [delimited.rooted unit head]
    rfl
  · exact endsPath_authority (delimited.query_starts unit head)

end Parts.Delimited

theorem behindScheme_written {scheme : Text} (valid : IsScheme scheme)
    (behind : Text) :
    behindScheme (scheme ++ 0x3a :: 0x2f :: 0x2f :: behind) = some behind := by
  obtain ⟨first, rest, rfl⟩ := exists_cons_of_ne_nil valid.nonempty
  exact behindScheme_scheme (valid.letter first rfl)
    (fun unit member => valid.units unit (mem_cons_of_mem _ member)) behind

theorem schemeOf_written {scheme : Text} (valid : IsScheme scheme)
    (behind : Text) :
    schemeOf (scheme ++ 0x3a :: behind) = some scheme := by
  obtain ⟨first, rest, rfl⟩ := exists_cons_of_ne_nil valid.nonempty
  have letter := valid.letter first rfl
  have units := fun unit member => valid.units unit (mem_cons_of_mem _ member)
  have stops : isSchemeUnit 0x3a = false := rfl
  simp only [cons_append, schemeOf]
  rw [dropWhile_append_of_pos units, takeWhile_append_of_pos units]
  simp [stops, letter]

theorem urlParts_written {scheme : Text} {parts : Parts}
    (valid : IsScheme scheme) (delimited : parts.Delimited) :
    urlParts (written scheme parts) = some parts := by
  have authority := takeWhile_until delimited.authority delimited.path_starts
  have suffix := dropWhile_until delimited.authority delimited.path_starts
  have path := takeWhile_until delimited.path delimited.query_starts
  have rest := dropWhile_until delimited.path delimited.query_starts
  have query := takeWhile_until delimited.query delimited.fragment_starts
  have fragment := dropWhile_until delimited.query delimited.fragment_starts
  simp only [urlParts, written, behindScheme_written valid, Parts.behind,
    Option.bind_eq_bind, Option.bind_some, authority, suffix, path, rest,
    query, fragment, delimited.nonempty, delimited.fragment,
    Bool.false_eq_true, or_self, ↓reduceIte]

theorem schemeOf_valid {raw scheme : Text} (found : schemeOf raw = some scheme) :
    IsScheme scheme ∧ ∃ behind, raw = scheme ++ 0x3a :: behind := by
  cases raw with
  | nil => cases found
  | cons first rest =>
      simp only [schemeOf] at found
      split at found
      · rename_i letter
        rw [Bool.and_eq_true, decide_eq_true_eq] at letter
        obtain rfl := Option.some.inj found
        refine ⟨⟨?_, cons_ne_nil _ _, ?_⟩, ?_⟩
        · simpa using letter.1
        · rw [forall_mem_cons]
          exact ⟨letter_schemeUnit letter.1, fun unit => mem_takeWhile_imp⟩
        · cases behind : rest.dropWhile isSchemeUnit with
          | nil => simp [behind] at letter
          | cons unit behind' =>
              obtain rfl : unit = 0x3a := by
                simpa [behind] using letter.2
              refine ⟨behind', ?_⟩
              rw [cons_append, ← behind, takeWhile_append_dropWhile]
      · cases found

theorem behindScheme_valid {raw scheme behind : Text}
    (found : schemeOf raw = some scheme)
    (split : behindScheme raw = some behind) :
    raw = scheme ++ 0x3a :: 0x2f :: 0x2f :: behind := by
  obtain ⟨valid, after, rfl⟩ := schemeOf_valid found
  obtain ⟨first, rest, rfl⟩ := exists_cons_of_ne_nil valid.nonempty
  have letter := valid.letter first rfl
  have units := fun unit member => valid.units unit (mem_cons_of_mem _ member)
  have stops : isSchemeUnit 0x3a = false := rfl
  simp only [cons_append, behindScheme, letter, ↓reduceIte] at split
  rw [dropWhile_append_of_pos units, dropWhile_cons_of_neg (by simp [stops])]
    at split
  split at split
  · rename_i parts
    obtain rfl := Option.some.inj split
    rw [(cons.inj parts).2]
  · cases split

theorem written_of_urlParts {raw scheme : Text} {parts : Parts}
    (found : schemeOf raw = some scheme) (split : urlParts raw = some parts) :
    raw = written scheme parts ∧ parts.Delimited := by
  simp only [urlParts, Option.bind_eq_bind, Option.bind_eq_some_iff] at split
  obtain ⟨behind, split, taken⟩ := split
  split at taken
  · cases taken
  · rename_i whole
    rw [not_or] at whole
    obtain rfl := Option.some.inj taken
    have suffix := dropWhile_starts endsAuthority behind
    have rest := dropWhile_starts endsPath (behind.dropWhile (!endsAuthority ·))
    refine ⟨?_, ?_⟩
    · simp only [written, Parts.behind, takeWhile_append_dropWhile]
      exact behindScheme_valid found split
    · refine ⟨takeWhile_inside, whole.1, ?_, takeWhile_inside, ?_,
        takeWhile_inside, ?_, eq_false_of_ne_true whole.2⟩
      · intro unit head
        have inside := takeWhile_inside unit (mem_of_mem_head? head)
        have ends := suffix unit (takeWhile_head unit head)
        simp_all [endsAuthority, endsPath]
      · intro unit head
        have inside := takeWhile_inside unit (mem_of_mem_head? head)
        have ends := rest unit (takeWhile_head unit head)
        simp_all [endsPath]
      · intro unit head
        simpa using dropWhile_starts (· == 0x23) _ unit head

theorem endsPath_scheme {unit : UInt16} (valid : isSchemeUnit unit = true) :
    endsPath unit = false := by
  by_contra ends
  simp only [endsPath, contains_eq_mem, mem_cons, not_mem_nil, or_false,
    Bool.not_eq_false, decide_eq_true_eq] at ends
  rcases ends with rfl | rfl <;> exact absurd valid (by decide)

/-- What stands in front of the query and of the fragment. -/
def front (scheme : Text) (parts : Parts) : Text :=
  scheme ++ 0x3a :: 0x2f :: 0x2f :: (parts.authority ++ parts.path)

theorem written_front (scheme : Text) (parts : Parts) :
    written scheme parts =
      front scheme parts ++ (parts.query ++ parts.fragment) := by
  simp [written, front, Parts.behind]

theorem front_inside {scheme : Text} {parts : Parts}
    (valid : IsScheme scheme) (delimited : parts.Delimited) :
    ∀ unit ∈ front scheme parts, endsPath unit = false := by
  intro unit member
  simp only [front, mem_append, mem_cons] at member
  rcases member with scheme | rfl | rfl | rfl | authority | path
  · exact endsPath_scheme (valid.units unit scheme)
  · rfl
  · rfl
  · rfl
  · refine eq_false_of_ne_true fun ends => ?_
    have stops := endsPath_authority ends
    simp [delimited.authority unit authority] at stops
  · exact delimited.path unit path

theorem structuralPart_written {scheme : Text} {parts : Parts}
    (valid : IsScheme scheme) (delimited : parts.Delimited) :
    structuralPart (written scheme parts) = front scheme parts := by
  rw [structuralPart, written_front,
    takeWhile_until (front_inside valid delimited) delimited.query_starts]

/-! ## Escapes -/

/-- No percent sign without two hexadecimal digits behind it. -/
def escaped : Text → Bool
  | [] => true
  | unit :: rest => (unit != 0x25 || hexAhead rest) && escaped rest

theorem badPercent_eq_none {raw : Text} {index : Nat} :
    badPercent index raw = none ↔ escaped raw = true := by
  induction raw generalizing index with
  | nil => simp [badPercent, escaped]
  | cons unit rest induction =>
      by_cases percent : unit = 0x25 <;> cases ahead : hexAhead rest <;>
        simp [badPercent, escaped, percent, ahead, induction]

/-- A piece that neither takes part in an escape around it nor has an open
one. -/
def Closed (piece : Text) : Prop :=
  ∀ rest, escaped (piece ++ rest) = escaped rest

theorem Closed.append {first second : Text} (closed : Closed first)
    (closed' : Closed second) : Closed (first ++ second) := by
  intro rest
  rw [append_assoc, closed, closed']

theorem Closed.flatMap {α : Type} {piece : α → Text} {values : List α}
    (closed : ∀ value ∈ values, Closed (piece value)) :
    Closed (values.flatMap piece) := by
  induction values with
  | nil => exact fun _ => rfl
  | cons value values induction =>
      rw [forall_mem_cons] at closed
      exact closed.1.append (induction closed.2)

theorem isHexDigit_hexUnit :
    ∀ digit < 16, isHexDigit (hexUnit digit) = true := by
  decide

theorem percentByte_closed (byte : Nat) : Closed (percentByte byte) := by
  intro rest
  have high := isHexDigit_hexUnit (byte / 16 % 16) (by omega)
  have low := isHexDigit_hexUnit (byte % 16) (by omega)
  have apart : ∀ unit, isHexDigit unit = true → (unit != 0x25) = true := by
    rintro unit hex
    rw [bne_iff_ne]
    rintro rfl
    exact absurd hex (by decide)
  simp [percentByte, escaped, hexAhead, high, low, apart _ high, apart _ low]

theorem encodeURIComponent_closed (point : Nat) :
    Closed (encodeURIComponent point) :=
  Closed.flatMap fun byte _ => percentByte_closed byte

theorem hexAhead_cases {text : Text} (ahead : hexAhead text = true) :
    ∃ high low rest, text = high :: low :: rest ∧
      isHexDigit high = true ∧ isHexDigit low = true := by
  match text with
  | [] => cases ahead
  | [_] => cases ahead
  | high :: low :: rest =>
      exact ⟨high, low, rest, rfl, by simpa [hexAhead] using ahead⟩

/-- Replacing units that are no part of an escape leaves the escapes whole. -/
theorem escaped_flatMap {piece : UInt16 → Text}
    (kept : ∀ unit, isHexDigit unit = true → piece unit = [unit])
    (closed : ∀ unit, piece unit = [unit] ∨ Closed (piece unit))
    {raw : Text} (whole : escaped raw = true) :
    escaped (raw.flatMap piece) = true := by
  induction raw with
  | nil => rfl
  | cons unit rest induction =>
      simp only [escaped, Bool.and_eq_true, Bool.or_eq_true] at whole
      have others := induction whole.2
      rw [flatMap_cons]
      rcases closed unit with single | closed
      · rw [single, singleton_append, escaped, others, Bool.and_true]
        rcases whole.1 with plain | ahead
        · rw [plain, Bool.true_or]
        · obtain ⟨high, low, behind, rfl, highHex, lowHex⟩ :=
            hexAhead_cases ahead
          simp [kept high highHex, kept low lowHex, hexAhead, highHex, lowHex]
      · rw [closed, others]

theorem not_percent {unit : UInt16} (hex : isHexDigit unit = true) :
    unit ≠ 0x25 := by
  rintro rfl
  exact absurd hex (by decide)

theorem escapePercents_escaped (raw : Text) :
    escaped (escapePercents raw) = true := by
  induction raw with
  | nil => rfl
  | cons unit rest induction =>
      rw [escapePercents]
      split
      · have digits : hexAhead (0x32 :: 0x35 :: escapePercents rest) = true :=
          rfl
        simp [escaped, digits, induction]
      · rename_i whole
        rw [not_and_not_right] at whole
        rw [escaped, induction, Bool.and_true]
        by_cases percent : unit = 0x25
        · obtain ⟨high, low, behind, rfl, highHex, lowHex⟩ :=
            hexAhead_cases (whole percent)
          simp [escapePercents, not_percent highHex, not_percent lowHex,
            hexAhead, highHex, lowHex]
        · simp [percent]

theorem escaped_behind {first second : Text}
    (whole : escaped (first ++ second) = true) : escaped second = true := by
  induction first with
  | nil => exact whole
  | cons unit first induction =>
      simp only [cons_append, escaped, Bool.and_eq_true] at whole
      exact induction whole.2

theorem escaped_append {first second : Text} (whole : escaped first = true)
    (whole' : escaped second = true) : escaped (first ++ second) = true := by
  induction first with
  | nil => exact whole'
  | cons unit first induction =>
      simp only [escaped, Bool.and_eq_true, Bool.or_eq_true] at whole
      simp only [cons_append, escaped, induction whole.2, Bool.and_true,
        Bool.or_eq_true]
      refine whole.1.imp_right fun ahead => ?_
      obtain ⟨high, low, behind, rfl, highHex, lowHex⟩ := hexAhead_cases ahead
      simp [hexAhead, highHex, lowHex]

/-- An escape does not reach over a unit that is no digit. -/
theorem escaped_front {first second : Text}
    (whole : escaped (first ++ second) = true)
    (stops : ∀ unit ∈ second.head?, isHexDigit unit = false) :
    escaped first = true := by
  induction first with
  | nil => rfl
  | cons unit first induction =>
      simp only [cons_append, escaped, Bool.and_eq_true, Bool.or_eq_true]
        at whole ⊢
      refine ⟨whole.1.imp_right fun ahead => ?_, induction whole.2⟩
      match first with
      | [] =>
          cases second with
          | nil => cases ahead
          | cons next rest =>
              cases rest <;> simp_all [hexAhead]
      | [high] =>
          cases second with
          | nil => cases ahead
          | cons next rest => simp_all [hexAhead]
      | high :: low :: rest => exact ahead

/-! ## Units of encoded texts -/

def isEscapeUnit (unit : UInt16) : Bool :=
  unit == 0x25 || isHexDigit unit

/-- Delimiters, the characters that are to be escaped, and ends of lines. -/
def reservedUnits : Text :=
  [0x2f, 0x3f, 0x23, 0x5c, 0x40, 0x20, 0x3c, 0x3e, 0x22, 0x60, 0x7b, 0x7d,
    0x7c, 0x5e, 0x0a, 0x0d, 0x2028, 0x2029]

theorem reservedUnits_plain :
    reservedUnits.all (!isEscapeUnit ·) = true := by
  decide

theorem escapeUnit_notMem {unit : UInt16} (escape : isEscapeUnit unit = true) :
    unit ∉ reservedUnits := by
  intro reserved
  have plain := all_eq_true.mp reservedUnits_plain unit reserved
  simp [escape] at plain

theorem mem_encodeURIComponent {unit : UInt16} {point : Nat}
    (member : unit ∈ encodeURIComponent point) : isEscapeUnit unit = true := by
  obtain ⟨byte, _, member⟩ := mem_flatMap.mp member
  simp only [percentByte, mem_cons, not_mem_nil, or_false] at member
  rcases member with rfl | rfl | rfl
  · rfl
  · simp [isEscapeUnit, isHexDigit_hexUnit (byte / 16 % 16) (by omega)]
  · simp [isEscapeUnit, isHexDigit_hexUnit (byte % 16) (by omega)]

theorem encodeURIComponent_ne (point : Nat) : encodeURIComponent point ≠ [] := by
  unfold encodeURIComponent utf8
  split_ifs <;> exact cons_ne_nil _ _

/-- A printable code point is a unit of the text. -/
theorem mem_codePoints {text : Text} {point : Nat}
    (member : point ∈ Utf16.codePoints text) (small : point < 0x10000) :
    UInt16.ofNat point ∈ text := by
  fun_induction Utf16.codePoints text with
  | case1 => cases member
  | case2 unit =>
      rw [mem_singleton] at member
      simp [member]
  | case3 first second rest paired induction =>
      rcases mem_cons.mp member with equal | member
      · omega
      · exact mem_cons_of_mem _ (mem_cons_of_mem _ (induction member))
  | case4 first second rest alone induction =>
      rcases mem_cons.mp member with equal | member
      · simp [equal]
      · exact mem_cons_of_mem _ (induction member)

theorem mem_encodeUnicode {part : Text} {unit : UInt16}
    (member : unit ∈ encodeUnicode part) :
    unit ∈ part ∨ isEscapeUnit unit = true := by
  obtain ⟨point, inside, member⟩ := mem_flatMap.mp member
  split at member
  · rw [mem_singleton] at member
    exact .inl (member ▸ mem_codePoints inside (by omega))
  · exact .inr (mem_encodeURIComponent member)

theorem isPrintable_toNat {unit : UInt16} (printable : isPrintable unit = true) :
    0x20 ≤ unit.toNat ∧ unit.toNat ≤ 0x7e := by
  simpa [isPrintable, UInt16.le_iff_toNat_le] using printable

theorem printable_alone {unit : UInt16} (printable : isPrintable unit = true) :
    Utf16.isHighSurrogate unit = false ∧ Utf16.isLowSurrogate unit = false := by
  have small := isPrintable_toNat printable
  constructor <;> rw [Bool.eq_false_iff, Ne]
  · rw [Utf16.isHighSurrogate_iff]
    omega
  · rw [Utf16.isLowSurrogate_iff]
    omega

theorem encodeUnicode_printable {part : Text}
    (printable : ∀ unit ∈ part, isPrintable unit = true) :
    encodeUnicode part = part := by
  induction part with
  | nil => rfl
  | cons unit rest induction =>
      rw [forall_mem_cons] at printable
      have small := isPrintable_toNat printable.1
      have others := induction printable.2
      unfold encodeUnicode at others ⊢
      rw [Utf16.codePoints_cons_alone (printable_alone printable.1).1,
        flatMap_cons, others, if_pos small]
      simp

theorem byteLength_front {part : Text}
    (printable : ∀ unit ∈ part, isPrintable unit = true) (rest : Text) :
    Utf16.byteLength (part ++ rest) = part.length + Utf16.byteLength rest := by
  induction part with
  | nil => exact (Nat.zero_add _).symm
  | cons unit part induction =>
      rw [forall_mem_cons] at printable
      have small := isPrintable_toNat printable.1
      have size : Utf16.pointSize unit.toNat = 1 := by
        unfold Utf16.pointSize
        rw [if_pos (by omega)]
      rw [cons_append, Utf16.byteLength_of_codePoints
        (Utf16.codePoints_cons_alone (printable_alone printable.1).1 _),
        induction printable.2, size, length_cons]
      omega

theorem codePoints_printable {part : Text}
    (printable : ∀ unit ∈ part, isPrintable unit = true) :
    Utf16.byteLength part = part.length := by
  simpa [Utf16.byteLength, Utf16.codePoints, Offset.size] using
    byteLength_front printable []

theorem invalidUnit_index {index other : Nat} {text : Text}
    (clean : invalidUnit index text = none) :
    invalidUnit other text = none := by
  fun_induction invalidUnit index text generalizing other <;>
    simp_all [invalidUnit]

theorem invalidUnit_front {part : Text}
    (printable : ∀ unit ∈ part, isPrintable unit = true) (rest : Text)
    (index : Nat) :
    invalidUnit index (part ++ rest) = none ↔ invalidUnit 0 rest = none := by
  have plain : ∀ unit, isPrintable unit = true →
      (decide (unit ≤ 31) || decide (unit = 127)) = false := by
    intro unit printable
    have small := isPrintable_toNat printable
    simp only [Bool.or_eq_false_iff, decide_eq_false_iff_not,
      UInt16.le_iff_toNat_le, ← UInt16.toNat_inj]
    refine ⟨?_, ?_⟩ <;> simp <;> omega
  induction part generalizing index with
  | nil => exact ⟨invalidUnit_index, invalidUnit_index⟩
  | cons unit part induction =>
      rw [forall_mem_cons] at printable
      have alone := printable_alone printable.1
      refine Iff.trans ?_ (induction printable.2 (index + 1))
      rw [cons_append]
      cases part ++ rest with
      | nil => simp [invalidUnit, plain unit printable.1, alone]
      | cons next rest =>
          rw [invalidUnit, plain unit printable.1, alone.1, alone.2]
          exact Iff.rfl

theorem invalidUnit_printable {part : Text}
    (printable : ∀ unit ∈ part, isPrintable unit = true) (index : Nat) :
    invalidUnit index part = none := by
  simpa [invalidUnit] using invalidUnit_front printable [] index

theorem isPrintable_scheme {unit : UInt16}
    (valid : isSchemeUnit unit = true) : isPrintable unit = true := by
  simp only [isSchemeUnit, isLower, isUpper, isDigit, Bool.or_eq_true,
    Bool.and_eq_true, decide_eq_true_eq, UInt16.le_iff_toNat_le,
    contains_eq_mem, mem_cons, not_mem_nil, or_false] at valid
  rw [isPrintable, Bool.and_eq_true, decide_eq_true_eq, decide_eq_true_eq,
    UInt16.le_iff_toNat_le, UInt16.le_iff_toNat_le]
  rcases valid with ((⟨_, _⟩ | ⟨_, _⟩) | ⟨_, _⟩) | rfl | rfl | rfl <;>
    simp at * <;> omega

theorem closed_of_noPercent {part : Text}
    (noPercent : ∀ unit ∈ part, unit ≠ 0x25) : Closed part := by
  intro rest
  induction part with
  | nil => rfl
  | cons unit part induction =>
      rw [forall_mem_cons] at noPercent
      simp [escaped, noPercent.1, induction noPercent.2]

end Motrix.DownloadSource
