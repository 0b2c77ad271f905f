import Mathlib.Data.List.Forall2
import Motrix.Engine.OutputChunks

/-!
# Header lines in the output

The values of the headers of an HTTP message are not to be told from the
records.  A line that is too long makes the reader forget the message, so the
value of the next header line goes through the redaction of other lines; and so
does a folded line that reads as an exception line.
-/

namespace Motrix.ProcessOutput

open Lib.Utf16

/-- The records of a decoded output. -/
def recordsOf (host : Host) (redactKnownSecrets : Text → Text)
    (stream : OutputStream) (decoded : Text) : List Aria2OutputRecord :=
  (readLines host redactKnownSecrets stream {} (splitLines decoded)).2

theorem recordsOf_lines {host : Host} {redactKnownSecrets : Text → Text}
    {stream : OutputStream} {decoded : Text} {lines : List Text}
    (split : splitLines decoded = lines) :
    recordsOf host redactKnownSecrets stream decoded =
      (readLines host redactKnownSecrets stream {} lines).2 := by
  rw [← split]
  rfl

/-- A name that leaves room for a value. -/
structure HeaderName where
  name : Text
  filled : name ≠ []
  tokens : ∀ unit ∈ name, isToken unit = true
  room : name.length + 2 ≤ maxLineLength

/-- The white space of a folded line. -/
inductive Gap where
  | space
  | tab
  deriving DecidableEq

def Gap.unit : Gap → UInt16
  | space => 0x20
  | tab => 0x09

/-- A line of the header block. -/
inductive Field where
  | header (name : HeaderName) (value : Text)
  | folded (gap : Gap) (value : Text)
  | oversized (content : Text)

def Field.line : Field → Text
  | header name value => name.name ++ 0x3a :: value
  | folded gap value => gap.unit :: value
  | oversized content => content

/-- The lines differ in their values only, and are of one length class. -/
def Field.SameShape : Field → Field → Prop
  | header name _, header other _ => name = other
  | folded gap _, folded other _ => gap = other
  | oversized _, oversized _ => True
  | _, _ => False

def isOneLine (line : Text) : Bool :=
  line.all fun unit => unit != 0x0a && unit != 0x0d

/-- No control sequence begins. -/
def isUnescaped (line : Text) : Bool :=
  line.all fun unit => unit != 0x1b && unit != 0x9b

/-- A folded line is not blank, which would end the block. -/
def Field.Fits (host : Host) (field : Field) : Prop :=
  isOneLine field.line = true ∧
    match field with
    | header _ _ => field.line.length ≤ maxLineLength
    | folded _ _ => field.line.length ≤ maxLineLength ∧
        isFolded (host.stripVTControlCharacters field.line) = true
    | oversized _ => maxLineLength < field.line.length

/-- What stands in front of a line of the block. -/
inductive Front where
  | start
  | value
  | lost

/-- No header line is behind a line that is too long; a folded line is behind
a header line or a folded one, and is no exception line. -/
def covered (host : Host) : Front → List Field → Bool
  | _, [] => true
  | .lost, .header _ _ :: _ => false
  | _, .header _ _ :: rest => covered host .value rest
  | .value, .folded gap value :: rest =>
      !isExceptionLine (host.stripVTControlCharacters
        (Field.folded gap value).line) && covered host .value rest
  | _, .folded _ _ :: _ => false
  | _, .oversized _ :: rest => covered host .lost rest

structure StartsMessage (host : Host) (start : Text) : Prop where
  oneLine : isOneLine start = true
  short : start.length ≤ maxLineLength
  recognized : ((requestLine (host.stripVTControlCharacters start)).isSome ||
    isStatusLine (host.stripVTControlCharacters start)) = true

/-- Outputs that only differ in these lines have the same records. -/
def Agree (host : Host) (start : Text) (fields others : List Field) : Prop :=
  ∀ (redactKnownSecrets : Text → Text) (stream : OutputStream)
    (before after : List Text) (decoded decoded' : Text),
    splitLines decoded =
        before ++ start :: (fields.map Field.line ++ after) →
      splitLines decoded' =
        before ++ start :: (others.map Field.line ++ after) →
      recordsOf host redactKnownSecrets stream decoded =
        recordsOf host redactKnownSecrets stream decoded'

/-- What is relied on: control sequences begin with one of two units, and a
short text of letters has nothing to redact. -/
structure Host.Lawful (host : Host) : Prop where
  strips : ∀ front rest : Text, isUnescaped front = true →
    host.stripVTControlCharacters (front ++ rest) =
      front ++ host.stripVTControlCharacters rest
  strips_nil : host.stripVTControlCharacters [] = []
  plain : ∀ line : Text,
    (line.all fun unit => 0x61 ≤ unit && unit ≤ 0x7a) = true →
    line.length ≤ 16384 → host.redactUrls line = line

/-! ## One line -/

section Line

variable {host : Host} {redactKnownSecrets : Text → Text}
  {stream : OutputStream} {state : LineState}

theorem isToken_bounds {unit : UInt16} (token : isToken unit = true) :
    0x21 ≤ unit.toNat ∧ unit.toNat ≤ 0x7e := by
  have symbols : ∀ symbol ∈ text "!#$%&'*+.^`|~-",
      0x21 ≤ symbol.toNat ∧ symbol.toNat ≤ 0x7e :=
    List.forall_iff_forall_mem.mp (by decide +kernel)
  simp only [isToken, isWord, isDigit, Bool.or_eq_true, Bool.and_eq_true,
    decide_eq_true_eq, beq_iff_eq, UInt16.le_iff_toNat_le,
    UInt16.reduceToNat] at token
  rcases token with word | symbol
  · rcases word with range | underscore
    · omega
    · rw [underscore]
      decide
  · exact symbols unit (List.contains_iff_mem.mp symbol)

theorem isToken_not_escape {unit : UInt16} (token : isToken unit = true) :
    unit ≠ 0x1b ∧ unit ≠ 0x9b := by
  have bounds := isToken_bounds token
  constructor
  · intro escape
    rw [escape] at bounds
    exact absurd bounds (by decide)
  · intro escape
    rw [escape] at bounds
    exact absurd bounds (by decide)

theorem isToken_not_space {unit : UInt16} (token : isToken unit = true) :
    isSpace unit = false := by
  have bounds := isToken_bounds token
  have away : ∀ space ∈ [0x20, 0xa0, 0x1680, 0x2028, 0x2029, 0x202f, 0x205f,
      0x3000, (0xfeff : UInt16)], ¬(0x21 ≤ space.toNat ∧ space.toNat ≤ 0x7e) :=
    List.forall_iff_forall_mem.mp (by decide +kernel)
  cases space : isSpace unit with
  | false => rfl
  | true =>
      simp only [isSpace, Bool.or_eq_true, Bool.and_eq_true,
        decide_eq_true_eq, UInt16.le_iff_toNat_le, UInt16.reduceToNat]
        at space
      rcases space with range | listed
      · omega
      · exact absurd bounds (away unit (List.contains_iff_mem.mp listed))

/-- What a text that begins with tokens has behind them. -/
theorem dropWhile_token {front rest : Text} {next : UInt16}
    (tokens : ∀ unit ∈ front, isToken unit = true)
    (ends : isToken next = false) :
    (front ++ next :: rest).dropWhile isToken = next :: rest := by
  rw [List.dropWhile_append_of_pos tokens, List.dropWhile_cons, ends]
  rfl

theorem takeWhile_token {front rest : Text} {next : UInt16}
    (tokens : ∀ unit ∈ front, isToken unit = true)
    (ends : isToken next = false) :
    (front ++ next :: rest).takeWhile isToken = front := by
  rw [List.takeWhile_append_of_pos tokens, List.takeWhile_cons, ends]
  exact List.append_nil _

theorem methods_tokens {method : String} (member : method ∈ methods) :
    ∃ front, text (method ++ " ") = front ++ [0x20] ∧ front ≠ [] ∧
      ∀ unit ∈ front, isToken unit = true := by
  simp only [methods, List.mem_cons, List.not_mem_nil, or_false] at member
  rcases member with rfl | rfl | rfl | rfl | rfl | rfl | rfl | rfl
  · exact ⟨text "GET", rfl, by decide +kernel,
      List.all_eq_true.mp (by decide +kernel)⟩
  · exact ⟨text "HEAD", rfl, by decide +kernel,
      List.all_eq_true.mp (by decide +kernel)⟩
  · exact ⟨text "POST", rfl, by decide +kernel,
      List.all_eq_true.mp (by decide +kernel)⟩
  · exact ⟨text "PUT", rfl, by decide +kernel,
      List.all_eq_true.mp (by decide +kernel)⟩
  · exact ⟨text "DELETE", rfl, by decide +kernel,
      List.all_eq_true.mp (by decide +kernel)⟩
  · exact ⟨text "OPTIONS", rfl, by decide +kernel,
      List.all_eq_true.mp (by decide +kernel)⟩
  · exact ⟨text "PATCH", rfl, by decide +kernel,
      List.all_eq_true.mp (by decide +kernel)⟩
  · exact ⟨text "CONNECT", rfl, by decide +kernel,
      List.all_eq_true.mp (by decide +kernel)⟩

/-- A header line is no request line. -/
theorem requestLine_header (name : HeaderName) (value : Text) :
    requestLine (name.name ++ 0x3a :: value) = none := by
  unfold requestLine
  rw [List.findSome?_eq_none_iff]
  intro method member
  obtain ⟨front, parts, -, tokens⟩ := methods_tokens member
  unfold requestOf after
  split
  · next starts =>
      obtain ⟨rest, whole⟩ := List.isPrefixOf_iff_prefix.mp starts
      rw [parts, List.append_assoc, List.singleton_append] at whole
      have left : (front ++ 0x20 :: rest).dropWhile isToken = 0x20 :: rest :=
        dropWhile_token tokens (by decide)
      rw [whole, dropWhile_token name.tokens (by decide)] at left
      cases left
  · rfl

theorem afterTemplate_cons {character : Char} {template : List Char}
    {line rest : Text} (letter : character ≠ 'd')
    (found : afterTemplate (character :: template) line = some rest) :
    ∃ unit behind, line = unit :: behind ∧
      encodePoint character.toNat = [unit] ∧
      afterTemplate template behind = some rest := by
  cases line with
  | nil => cases found
  | cons unit behind =>
      simp only [afterTemplate] at found
      split at found
      · next same => exact ⟨unit, behind, rfl, same, found⟩
      · cases found

/-- A header line is no status line. -/
theorem isStatusLine_header (name : HeaderName) (value : Text) :
    isStatusLine (name.name ++ 0x3a :: value) = false := by
  have never : ∀ (template : List Char) (rest : Text),
      afterTemplate ('H' :: 'T' :: 'T' :: 'P' :: '/' :: template)
        (name.name ++ 0x3a :: value) ≠ some rest := by
    intro template rest found
    obtain ⟨h, afterH, whole, isH, found⟩ :=
      afterTemplate_cons (by decide) found
    obtain ⟨t, afterT, rfl, isT, found⟩ := afterTemplate_cons (by decide) found
    obtain ⟨u, afterU, rfl, isU, found⟩ := afterTemplate_cons (by decide) found
    obtain ⟨p, afterP, rfl, isP, found⟩ := afterTemplate_cons (by decide) found
    obtain ⟨slash, behind, rfl, isSlash, -⟩ :=
      afterTemplate_cons (by decide) found
    cases isH
    cases isT
    cases isU
    cases isP
    cases isSlash
    have left : (text "HTTP" ++ 0x2f :: behind).dropWhile isToken =
        0x2f :: behind :=
      dropWhile_token (List.all_eq_true.mp (by decide +kernel)) (by decide)
    have same : name.name ++ 0x3a :: value = text "HTTP" ++ 0x2f :: behind :=
      whole
    rw [← same, dropWhile_token name.tokens (by decide)] at left
    cases left
  have none : afterVersion (name.name ++ 0x3a :: value) = none := by
    unfold afterVersion
    cases long : afterTemplate "HTTP/d.d".toList
        (name.name ++ 0x3a :: value) with
    | some rest => exact absurd long (never _ rest)
    | none =>
        cases short : afterTemplate "HTTP/d".toList
            (name.name ++ 0x3a :: value) with
        | some rest => exact absurd short (never _ rest)
        | none => rfl
  unfold isStatusLine
  rw [none]
  rfl

/-- A header line begins with a token. -/
theorem header_head (name : HeaderName) (value : Text) :
    ∃ first rest, name.name ++ 0x3a :: value = first :: rest ∧
      isToken first = true := by
  cases parts : name.name with
  | nil => exact absurd parts name.filled
  | cons first rest =>
      refine ⟨first, rest ++ 0x3a :: value, rfl, name.tokens first ?_⟩
      rw [parts]
      exact List.mem_cons_self

theorem header_not_blank (name : HeaderName) (value : Text) :
    (name.name ++ 0x3a :: value).all isSpace = false ∧
      isFolded (name.name ++ 0x3a :: value) = false ∧
      headerName (name.name ++ 0x3a :: value) = some name.name := by
  obtain ⟨first, rest, parts, token⟩ := header_head name value
  have visible := isToken_not_space token
  refine ⟨?_, ?_, ?_⟩
  · rw [parts, List.all_cons, visible]
    rfl
  · rw [parts, isFolded, List.head?_cons, Option.any_some, visible]
    rfl
  · have start : (name.name ++ 0x3a :: value).dropWhile isSpace =
        name.name ++ 0x3a :: value := by
      rw [parts, List.dropWhile_cons, visible]
      rfl
    unfold headerName
    dsimp only
    rw [start, dropWhile_token name.tokens (by decide),
      takeWhile_token name.tokens (by decide), parts, List.head?_cons,
      Option.any_some, token]
    rfl

theorem header_stripped (lawful : host.Lawful) (name : HeaderName)
    (value : Text) :
    host.stripVTControlCharacters (name.name ++ 0x3a :: value) =
      name.name ++ 0x3a :: host.stripVTControlCharacters value := by
  have plain : isUnescaped (name.name ++ [0x3a]) = true := by
    apply List.all_eq_true.mpr
    intro unit member
    rcases List.mem_append.mp member with inside | colon
    · simpa using isToken_not_escape (name.tokens unit inside)
    · rw [List.mem_singleton.mp colon]
      rfl
  have parts : name.name ++ 0x3a :: value = name.name ++ [0x3a] ++ value := by
    simp
  rw [parts, lawful.strips _ _ plain]
  simp

/-- The state and the record when a line is replaced by a fixed text. -/
def emission (stream : OutputStream) (state : LineState) (data : Text) :
    LineState × List Aria2OutputRecord :=
  ({ state with context := (classify stream state.context data).2 },
    [(classify stream state.context data).1])

/-- In a message the record of a header line only has the name. -/
theorem emitLine_header (lawful : host.Lawful) (name : HeaderName)
    (value : Text) (inside : state.httpHeaders = true) :
    emitLine host redactKnownSecrets stream state (name.name ++ 0x3a :: value) =
      emission stream { state with redactedHeader := true }
        (name.name ++ text ": [redacted]") := by
  obtain ⟨visible, unfolded, named⟩ :=
    header_not_blank name (host.stripVTControlCharacters value)
  unfold emitLine
  rw [header_stripped lawful]
  simp only [visible, Bool.false_eq_true, if_false, sanitize, unfolded,
    Bool.and_false, Bool.false_and, requestLine_header, isStatusLine_header,
    Option.isSome_none, Bool.or_self, inside, if_true, named]
  rfl

/-- The value of a header line behind a line that is too long is redacted like
any other text. -/
theorem emitLine_lost (lawful : host.Lawful) (name : HeaderName)
    (value : Text) :
    (emitLine host redactKnownSecrets stream {}
        (name.name ++ 0x3a :: value)).2.map (·.data) =
      [host.redactUrls (redactSensitive (redactKnownSecrets
        (name.name ++ 0x3a :: host.stripVTControlCharacters value)))] := by
  obtain ⟨visible, unfolded, -⟩ :=
    header_not_blank name (host.stripVTControlCharacters value)
  unfold emitLine
  rw [header_stripped lawful]
  simp only [visible, Bool.false_eq_true, if_false, sanitize,
    Bool.false_and, requestLine_header, isStatusLine_header,
    Option.isSome_none, Bool.or_self]
  rfl

/-- Behind a redacted line, a folded line is left out. -/
theorem emitLine_folded {line : Text} (redacted : state.redactedHeader = true)
    (folded : isFolded (host.stripVTControlCharacters line) = true)
    (ordinary : isExceptionLine (host.stripVTControlCharacters line) = false) :
    emitLine host redactKnownSecrets stream state line =
      emission stream state (text "[redacted header continuation]") := by
  have visible : (host.stripVTControlCharacters line).all isSpace = false := by
    simp only [isFolded, Bool.and_eq_true, Bool.not_eq_true'] at folded
    exact folded.2
  obtain ⟨context, redactedHeader, httpHeaders⟩ := state
  change redactedHeader = true at redacted
  subst redacted
  unfold emitLine
  simp only [visible, Bool.false_eq_true, if_false, sanitize, folded,
    ordinary, Bool.not_false, Bool.and_self, if_true]
  rfl

theorem recognized_head {line : Text}
    (recognized : ((requestLine line).isSome || isStatusLine line) = true) :
    ∃ first rest, line = first :: rest ∧ isSpace first = false := by
  rcases Bool.or_eq_true _ _ ▸ recognized with request | status
  · obtain ⟨redacted, found⟩ := Option.isSome_iff_exists.mp request
    obtain ⟨method, member, found⟩ := List.exists_of_findSome?_eq_some found
    obtain ⟨front, parts, filled, tokens⟩ := methods_tokens member
    unfold requestOf after at found
    split at found
    · next starts =>
        obtain ⟨rest, whole⟩ := List.isPrefixOf_iff_prefix.mp starts
        cases letters : front with
        | nil => exact absurd letters filled
        | cons first more =>
            rw [parts, letters] at whole
            refine ⟨first, more ++ [0x20] ++ rest, by rw [← whole]; rfl, ?_⟩
            apply isToken_not_space
            apply tokens
            rw [letters]
            exact List.mem_cons_self
    · cases found
  · have begins : ∀ (template : List Char) (rest : Text),
        afterTemplate ('H' :: template) line = some rest →
          ∃ first rest, line = first :: rest ∧ isSpace first = false := by
      intro template rest found
      obtain ⟨first, behind, whole, letter, -⟩ :=
        afterTemplate_cons (by decide) found
      cases letter
      exact ⟨_, behind, whole, by decide⟩
    unfold isStatusLine afterVersion at status
    cases long : afterTemplate "HTTP/d.d".toList line with
    | some rest => exact begins _ rest long
    | none =>
        cases short : afterTemplate "HTTP/d".toList line with
        | some rest => exact begins _ rest short
        | none =>
            rw [long, short] at status
            cases status

/-- The start of a message. -/
theorem emitLine_start {start : Text} (starts : StartsMessage host start) :
    let after := (emitLine host redactKnownSecrets stream state start).1
    after.httpHeaders = true ∧ after.redactedHeader = false := by
  have recognized := starts.recognized
  obtain ⟨first, rest, whole, visible⟩ := recognized_head recognized
  unfold emitLine
  generalize host.stripVTControlCharacters start = line at *
  have shown : line.all isSpace = false := by
    rw [whole, List.all_cons, visible]
    rfl
  have unfolded : isFolded line = false := by
    rw [whole, isFolded, List.head?_cons, Option.any_some, visible]
    rfl
  simp only [shown, Bool.false_eq_true, if_false, sanitize, unfolded,
    Bool.and_false, Bool.false_and, recognized, if_true]
  exact ⟨trivial, trivial⟩

end Line

/-! ## The block -/

section Block

variable {host : Host} {redactKnownSecrets : Text → Text}
  {stream : OutputStream} {state : LineState}

/-- What the reader knows behind such a line. -/
def Prepared : Front → LineState → Prop
  | .start, state => state.httpHeaders = true ∧ state.redactedHeader = false
  | .value, state => state.httpHeaders = true ∧ state.redactedHeader = true
  | .lost, state => state = {}

theorem readLine_oversized {content : Text}
    (long : maxLineLength < content.length) :
    readLine host redactKnownSecrets stream state content =
      emitOmittedLine stream state :=
  readLine_long host redactKnownSecrets stream long state

theorem readLine_header (lawful : host.Lawful) {name : HeaderName}
    {value : Text} (fits : (Field.header name value).Fits host)
    (inside : state.httpHeaders = true) :
    readLine host redactKnownSecrets stream state
        (Field.header name value).line =
      emission stream { state with redactedHeader := true }
        (name.name ++ text ": [redacted]") := by
  rw [readLine_short host redactKnownSecrets stream (Nat.not_lt.mpr fits.2)]
  exact emitLine_header lawful name value inside

theorem readLine_folded {gap : Gap} {value : Text}
    (fits : (Field.folded gap value).Fits host)
    (redacted : state.redactedHeader = true)
    (ordinary : isExceptionLine (host.stripVTControlCharacters
      (Field.folded gap value).line) = false) :
    readLine host redactKnownSecrets stream state
        (Field.folded gap value).line =
      emission stream state (text "[redacted header continuation]") := by
  rw [readLine_short host redactKnownSecrets stream
    (Nat.not_lt.mpr fits.2.1)]
  exact emitLine_folded redacted fits.2.2 ordinary

/-- The lines of two covered blocks are read as the same. -/
theorem readLines_covered (lawful : host.Lawful) {fields others : List Field}
    (shape : List.Forall₂ Field.SameShape fields others)
    (fits : ∀ field ∈ fields, field.Fits host)
    (fits' : ∀ field ∈ others, field.Fits host) {front : Front}
    (prepared : Prepared front state)
    (covers : covered host front fields = true)
    (covers' : covered host front others = true) :
    readLines host redactKnownSecrets stream state (fields.map Field.line) =
      readLines host redactKnownSecrets stream state
        (others.map Field.line) := by
  induction shape generalizing front state with
  | nil => rfl
  | @cons field other fields others same shape induction =>
      have fit := fits field List.mem_cons_self
      have fit' := fits' other List.mem_cons_self
      have rest := fun found member =>
        fits found (List.mem_cons_of_mem field member)
      have rest' := fun found member =>
        fits' found (List.mem_cons_of_mem other member)
      -- either both lines leave the same state and the same records
      have step : ∀ next : LineState × List Aria2OutputRecord,
          ∀ front', readLine host redactKnownSecrets stream state field.line =
              next →
            readLine host redactKnownSecrets stream state other.line = next →
            Prepared front' next.1 → covered host front' fields = true →
            covered host front' others = true →
            readLines host redactKnownSecrets stream state
                ((field :: fields).map Field.line) =
              readLines host redactKnownSecrets stream state
                ((other :: others).map Field.line) := by
        intro next front' one two ready first second
        simp only [List.map_cons, readLines, one, two]
        rw [induction rest rest' ready first second]
      cases field with
      | header name value =>
          cases other with
          | header name' value' =>
              cases same
              cases front with
              | lost => cases covers
              | start =>
                  exact step _ .value (readLine_header lawful fit prepared.1)
                    (readLine_header lawful fit' prepared.1)
                    ⟨prepared.1, rfl⟩ covers covers'
              | value =>
                  exact step _ .value (readLine_header lawful fit prepared.1)
                    (readLine_header lawful fit' prepared.1)
                    ⟨prepared.1, rfl⟩ covers covers'
          | _ => cases same
      | folded gap value =>
          cases other with
          | folded gap' value' =>
              cases front with
              | lost => cases covers
              | start => cases covers
              | value =>
                  simp only [covered, Bool.and_eq_true, Bool.not_eq_true']
                    at covers covers'
                  exact step _ .value
                    (readLine_folded fit prepared.2 covers.1)
                    (readLine_folded fit' prepared.2 covers'.1)
                    prepared covers.2 covers'.2
          | _ => cases same
      | oversized content =>
          cases other with
          | oversized content' =>
              have more : covered host .lost fields = true ∧
                  covered host .lost others = true := by
                cases front <;> exact ⟨covers, covers'⟩
              exact step _ .lost (readLine_oversized fit.2)
                (readLine_oversized fit'.2) rfl more.1 more.2
          | _ => cases same

/-- It only keeps the last unit of a line. -/
def lastUnit (line : Text) : Text :=
  if line.getLast? = some 0x78 then [0x78] else [0x61]

theorem strip_plain (lawful : host.Lawful) {line : Text}
    (plain : isUnescaped line = true) :
    host.stripVTControlCharacters line = line := by
  have whole := lawful.strips line [] plain
  rw [lawful.strips_nil, List.append_nil] at whole
  exact whole

theorem redact_last (lawful : host.Lawful) (line : Text) :
    host.redactUrls (redactSensitive (lastUnit line)) = lastUnit line := by
  unfold lastUnit
  split
  · exact lawful.plain [0x78] rfl (by decide)
  · exact lawful.plain [0x61] rfl (by decide)

/-- A folded line that reads as an exception line is redacted like any other
text. -/
theorem emitLine_arrow (lawful : host.Lawful) (gap : Gap) {unit : UInt16}
    (letter : unit = 0x78 ∨ unit = 0x61) :
    (emitLine host lastUnit stream state
      (gap.unit :: [0x2d, 0x3e, unit])).2.map (·.data) = [[unit]] := by
  have whole : host.stripVTControlCharacters (gap.unit :: [0x2d, 0x3e, unit]) =
      gap.unit :: [0x2d, 0x3e, unit] := by
    apply strip_plain lawful
    cases gap <;> rcases letter with rfl | rfl <;> rfl
  have last : lastUnit (gap.unit :: [0x2d, 0x3e, unit]) = [unit] := by
    cases gap <;> rcases letter with rfl | rfl <;> rfl
  have kept := redact_last lawful (gap.unit :: [0x2d, 0x3e, unit])
  rw [last] at kept
  have visible : (gap.unit :: [0x2d, 0x3e, unit]).all isSpace = false := by
    cases gap <;> rcases letter with rfl | rfl <;> rfl
  have arrow : isExceptionLine (gap.unit :: [0x2d, 0x3e, unit]) = true := by
    cases gap <;> rcases letter with rfl | rfl <;> rfl
  have other : ((requestLine (gap.unit :: [0x2d, 0x3e, unit])).isSome ||
      isStatusLine (gap.unit :: [0x2d, 0x3e, unit])) = false := by
    cases gap <;> rcases letter with rfl | rfl <;> rfl
  have unnamed : headerName (gap.unit :: [0x2d, 0x3e, unit]) = none := by
    cases gap <;> rcases letter with rfl | rfl <;> rfl
  unfold emitLine
  rw [whole]
  simp only [visible, Bool.false_eq_true, if_false, sanitize, arrow,
    Bool.not_true, Bool.and_false, other, unnamed, ite_self, last, kept]
  rfl

theorem sameShape_refl (fields : List Field) :
    List.Forall₂ Field.SameShape fields fields := by
  apply List.forall₂_same.mpr
  intro field _
  cases field <;> constructor

/-- Blocks of one shape that are told apart by their records. -/
def Leaks (host : Host) (state : LineState) (fields : List Field) : Prop :=
  ∃ first second : List Field,
    List.Forall₂ Field.SameShape fields first ∧
      List.Forall₂ Field.SameShape fields second ∧
      (∀ field ∈ first, field.Fits host) ∧
      (∀ field ∈ second, field.Fits host) ∧
      (readLines host lastUnit .stdout state (first.map Field.line)).2 ≠
        (readLines host lastUnit .stdout state (second.map Field.line)).2

/-- Two lines that are told apart. -/
theorem leaks_here {field : Field} {rest : List Field}
    (first second : Field) (shape : field.SameShape first)
    (shape' : field.SameShape second)
    (fit : first.Fits host) (fit' : second.Fits host)
    (fits : ∀ other ∈ rest, other.Fits host)
    (one : (readLine host lastUnit .stdout state first.line).2.map (·.data) =
      [[0x78]])
    (two : (readLine host lastUnit .stdout state second.line).2.map (·.data) =
      [[0x61]]) :
    Leaks host state (field :: rest) := by
  refine ⟨first :: rest, second :: rest, .cons shape (sameShape_refl rest),
    .cons shape' (sameShape_refl rest), List.forall_mem_cons.mpr ⟨fit, fits⟩,
    List.forall_mem_cons.mpr ⟨fit', fits⟩, ?_⟩
  intro same
  have data := congrArg (fun records => (records.map (·.data)).head?) same
  simp only [List.map_cons, readLines, List.map_append, one, two,
    List.singleton_append, List.head?_cons] at data
  exact absurd data (by decide)

/-- What leaks later leaks. -/
theorem leaks_later {field : Field} {rest : List Field}
    (fit : field.Fits host)
    (later : Leaks host
      (readLine host lastUnit .stdout state field.line).1 rest) :
    Leaks host state (field :: rest) := by
  obtain ⟨first, second, shape, shape', fits, fits', apart⟩ := later
  have same : field.SameShape field := by
    cases field <;> constructor
  refine ⟨field :: first, field :: second, .cons same shape,
    .cons same shape', List.forall_mem_cons.mpr ⟨fit, fits⟩,
    List.forall_mem_cons.mpr ⟨fit, fits'⟩, ?_⟩
  intro equal
  simp only [List.map_cons, readLines] at equal
  exact apart (List.append_cancel_left equal)

theorem header_fits (host : Host) (name : HeaderName) {unit : UInt16}
    (letter : unit = 0x78 ∨ unit = 0x61) :
    (Field.header name [unit]).Fits host := by
  constructor
  · apply List.all_eq_true.mpr
    intro found member
    rcases List.mem_append.mp member with inside | behind
    · have bounds := isToken_bounds (name.tokens found inside)
      simp only [Bool.and_eq_true, bne_iff_ne, ne_eq]
      constructor
      · intro feed
        rw [feed] at bounds
        exact absurd bounds (by decide)
      · intro feed
        rw [feed] at bounds
        exact absurd bounds (by decide)
    · rcases List.mem_cons.mp behind with rfl | last
      · rfl
      · rw [List.mem_singleton.mp last]
        rcases letter with rfl | rfl <;> rfl
  · have room := name.room
    simp only [Field.line, List.length_append, List.length_cons,
      List.length_nil]
    omega

theorem arrow_fits (lawful : host.Lawful) (gap : Gap) {unit : UInt16}
    (letter : unit = 0x78 ∨ unit = 0x61) :
    (Field.folded gap [0x2d, 0x3e, unit]).Fits host := by
  refine ⟨?_, ?_, ?_⟩
  · cases gap <;> rcases letter with rfl | rfl <;> rfl
  · exact (by decide : 4 ≤ maxLineLength)
  · rw [strip_plain lawful]
    · cases gap <;> rcases letter with rfl | rfl <;> rfl
    · cases gap <;> rcases letter with rfl | rfl <;> rfl

theorem leaks_folded (lawful : host.Lawful) (gap : Gap) (value : Text)
    {rest : List Field} (fits : ∀ other ∈ rest, other.Fits host) :
    Leaks host state (.folded gap value :: rest) := by
  have data : ∀ unit, unit = 0x78 ∨ unit = 0x61 →
      (readLine host lastUnit .stdout state
        (Field.folded gap [0x2d, 0x3e, unit]).line).2.map (·.data) =
          [[unit]] := by
    intro unit letter
    rw [readLine_short host lastUnit .stdout
      (Nat.not_lt.mpr (arrow_fits lawful gap letter).2.1)]
    exact emitLine_arrow lawful gap letter
  exact leaks_here (.folded gap [0x2d, 0x3e, 0x78])
    (.folded gap [0x2d, 0x3e, 0x61]) rfl rfl
    (arrow_fits lawful gap (Or.inl rfl)) (arrow_fits lawful gap (Or.inr rfl))
    fits (data _ (Or.inl rfl)) (data _ (Or.inr rfl))

theorem leaks_lost (lawful : host.Lawful) (name : HeaderName) (value : Text)
    {rest : List Field} (fits : ∀ other ∈ rest, other.Fits host) :
    Leaks host {} (.header name value :: rest) := by
  have data : ∀ unit, unit = 0x78 ∨ unit = 0x61 →
      (readLine host lastUnit .stdout {}
        (Field.header name [unit]).line).2.map (·.data) = [[unit]] := by
    intro unit letter
    rw [readLine_short host lastUnit .stdout
      (Nat.not_lt.mpr (header_fits host name letter).2)]
    have plain : host.stripVTControlCharacters [unit] = [unit] := by
      apply strip_plain lawful
      rcases letter with rfl | rfl <;> rfl
    have last : lastUnit (name.name ++ [0x3a, unit]) = [unit] := by
      unfold lastUnit
      rw [List.getLast?_append]
      rcases letter with rfl | rfl <;> rfl
    refine (emitLine_lost lawful name [unit]).trans ?_
    rw [plain, redact_last lawful, last]
  exact leaks_here (.header name [0x78]) (.header name [0x61]) rfl rfl
    (header_fits host name (Or.inl rfl)) (header_fits host name (Or.inr rfl))
    fits (data _ (Or.inl rfl)) (data _ (Or.inr rfl))

/-- A block that is not covered leaks. -/
theorem leaks_uncovered (lawful : host.Lawful) {fields : List Field}
    (front : Front) (prepared : Prepared front state)
    (fits : ∀ field ∈ fields, field.Fits host)
    (uncovered : covered host front fields = false) :
    Leaks host state fields := by
  induction fields generalizing front state with
  | nil => cases front <;> cases uncovered
  | cons field rest induction =>
      obtain ⟨fit, others⟩ := List.forall_mem_cons.mp fits
      cases field with
      | header name value =>
          cases front with
          | lost =>
              cases prepared
              exact leaks_lost lawful name value others
          | start =>
              apply leaks_later fit
              rw [readLine_header lawful fit prepared.1]
              exact induction .value ⟨prepared.1, rfl⟩ others uncovered
          | value =>
              apply leaks_later fit
              rw [readLine_header lawful fit prepared.1]
              exact induction .value ⟨prepared.1, rfl⟩ others uncovered
      | folded gap value => exact leaks_folded lawful gap value others
      | oversized content =>
          apply leaks_later fit
          rw [readLine_oversized fit.2]
          apply induction .lost rfl others
          cases front <;> exact uncovered

end Block

/-! ## Whole outputs -/

/-- An output that has these lines. -/
def unlines (lines : List Text) : Text :=
  lines.flatMap fun line => line ++ [0x0a]

theorem scan_line (line : Text) (single : isOneLine line = true) (scan : Scan)
    (unmarked : scan.previousWasCr = false) :
    line.foldl Scan.step scan =
      { scan with line := scan.line ++ line } := by
  induction line generalizing scan with
  | nil => simp
  | cons unit rest induction =>
      simp only [isOneLine, List.all_cons, Bool.and_eq_true, bne_iff_ne,
        ne_eq] at single
      obtain ⟨here, single⟩ := single
      have step : scan.step unit =
          { scan with line := scan.line ++ [unit] } := by
        simp [Scan.step, here.1, here.2, unmarked]
      rw [List.foldl_cons, step,
        induction single { scan with line := scan.line ++ [unit] } unmarked]
      simp

theorem splitLines_unlines (lines : List Text)
    (single : ∀ line ∈ lines, isOneLine line = true) :
    splitLines (unlines lines) = lines := by
  have scans : ∀ found : List Text,
      (unlines lines).foldl Scan.step { lines := found } =
        { lines := found ++ lines } := by
    induction lines with
    | nil => simp [unlines]
    | cons line rest induction =>
        intro found
        obtain ⟨here, single⟩ := List.forall_mem_cons.mp single
        have parts : unlines (line :: rest) =
            line ++ 0x0a :: unlines rest := by
          simp [unlines]
        rw [parts, List.foldl_append, scan_line line here _ rfl,
          List.foldl_cons]
        have step : Scan.step { lines := found, line := [] ++ line } 0x0a =
            { lines := found ++ [line] } := by
          simp [Scan.step]
        rw [step, induction single]
        simp
  unfold splitLines
  rw [scans []]
  rfl

/-- Two covered blocks of one shape have the same records; a block that is not
covered has not those of all blocks of its shape. -/
theorem conceals_iff {host : Host} (lawful : host.Lawful) {start : Text}
    (starts : StartsMessage host start) (fields : List Field)
    (fits : ∀ field ∈ fields, field.Fits host) :
    (covered host .start fields = true → ∀ others : List Field,
        List.Forall₂ Field.SameShape fields others →
        (∀ field ∈ others, field.Fits host) →
        covered host .start others = true → Agree host start fields others) ∧
      (covered host .start fields = false → ¬∀ others : List Field,
        List.Forall₂ Field.SameShape fields others →
        (∀ field ∈ others, field.Fits host) →
        Agree host start fields others) := by
  have begun : ∀ redactKnownSecrets stream state,
      Prepared .start (readLine host redactKnownSecrets stream state start).1 := by
    intro redactKnownSecrets stream state
    rw [readLine_short host redactKnownSecrets stream
      (Nat.not_lt.mpr starts.short)]
    exact emitLine_start starts
  constructor
  · intro covers others shape fits' covers' redactKnownSecrets stream before
      after decoded decoded' lines lines'
    rw [recordsOf_lines lines, recordsOf_lines lines', readLines_append,
      readLines_append]
    simp only [readLines, readLines_append]
    rw [readLines_covered lawful shape fits fits' (begun _ _ _) covers covers']
  · intro uncovered all
    obtain ⟨first, second, shape, shape', fits₁, fits₂, apart⟩ :=
      leaks_uncovered lawful .start (begun lastUnit .stdout {}) fits
        uncovered
    have output : ∀ others : List Field,
        (∀ field ∈ others, field.Fits host) →
        splitLines (unlines (start :: others.map Field.line)) =
          [] ++ start :: (others.map Field.line ++ []) := by
      intro others fits
      rw [splitLines_unlines]
      · simp
      · intro line member
        rcases List.mem_cons.mp member with rfl | inside
        · exact starts.oneLine
        · obtain ⟨field, found, rfl⟩ := List.mem_map.mp inside
          exact (fits field found).1
    have same := (all first shape fits₁ lastUnit .stdout [] [] _ _
      (output fields fits) (output first fits₁)).symm.trans
        (all second shape' fits₂ lastUnit .stdout [] [] _ _
          (output fields fits) (output second fits₂))
    rw [recordsOf_lines (output first fits₁),
      recordsOf_lines (output second fits₂)] at same
    simp only [List.nil_append, List.append_nil, readLines] at same
    exact apart (List.append_cancel_left same)

/-- Control sequences and addresses do not occur. -/
def plainHost : Host where
  stripVTControlCharacters := id
  redactUrls := id

theorem plainHost_lawful : plainHost.Lawful where
  strips _ _ _ := rfl
  strips_nil := rfl
  plain _ _ _ := rfl

def plainStart : Text :=
  text "GET / HTTP/1.1"

theorem plainStart_starts : StartsMessage plainHost plainStart where
  oneLine := rfl
  short := by decide +kernel
  recognized := rfl

def location : HeaderName where
  name := text "Location"
  filled := by decide +kernel
  tokens := List.all_eq_true.mp (by decide +kernel)
  room := by decide +kernel

def longLine : Field :=
  .oversized (List.replicate 32769 0x61)

theorem longLine_fits : longLine.Fits plainHost := by
  constructor
  · apply List.all_eq_true.mpr
    intro unit member
    rw [(List.mem_replicate.mp member).2]
    rfl
  · change maxLineLength < (List.replicate 32769 _).length
    rw [List.length_replicate]
    decide

/-- Values of a header and of its folded line do not show. -/
theorem conceals_plain :
    Agree plainHost plainStart
      [.header location (text " a"), .folded .space (text "a")]
      [.header location (text " b"), .folded .space (text "b")] := by
  have fits : ∀ field ∈ [Field.header location (text " a"),
      .folded .space (text "a")], field.Fits plainHost := by
    simp only [List.forall_mem_cons]
    exact ⟨⟨rfl, (by decide : 11 ≤ maxLineLength)⟩,
      ⟨rfl, (by decide : 2 ≤ maxLineLength), rfl⟩,
      fun _ none => by cases none⟩
  have fits' : ∀ field ∈ [Field.header location (text " b"),
      .folded .space (text "b")], field.Fits plainHost := by
    simp only [List.forall_mem_cons]
    exact ⟨⟨rfl, (by decide : 11 ≤ maxLineLength)⟩,
      ⟨rfl, (by decide : 2 ≤ maxLineLength), rfl⟩,
      fun _ none => by cases none⟩
  exact (conceals_iff plainHost_lawful plainStart_starts _ fits).1 rfl _
    (.cons rfl (.cons rfl .nil)) fits' rfl

/-- A line that is too long, and a header line. -/
def forgotten (value : Text) : List Field :=
  [longLine, .header location value]

def shownValues : List Text :=
  [text " a", text " b"]

theorem forgotten_fits {value : Text} (member : value ∈ shownValues) :
    ∀ field ∈ forgotten value, field.Fits plainHost := by
  simp only [forgotten, List.forall_mem_cons]
  refine ⟨longLine_fits, ?_, fun _ none => by cases none⟩
  simp only [shownValues, List.mem_cons, List.not_mem_nil, or_false] at member
  rcases member with rfl | rfl
  · exact ⟨rfl, (by decide : 11 ≤ maxLineLength)⟩
  · exact ⟨rfl, (by decide : 11 ≤ maxLineLength)⟩

theorem forgotten_lines {value : Text} (member : value ∈ shownValues) :
    splitLines (unlines (plainStart :: (forgotten value).map Field.line)) =
      plainStart :: (forgotten value).map Field.line := by
  apply splitLines_unlines
  rw [List.forall_mem_cons]
  refine ⟨plainStart_starts.oneLine, ?_⟩
  rw [List.forall_mem_map]
  exact fun field inside => (forgotten_fits member field inside).1

/-- Behind a line that is too long, a line is read as the first one. -/
theorem readLines_behind {host : Host} {redactKnownSecrets : Text → Text}
    {stream : OutputStream} {long : Text}
    (oversized : maxLineLength < long.length) (state : LineState)
    (first last : Text) :
    (readLines host redactKnownSecrets stream state [first, long, last]).2 =
      (readLine host redactKnownSecrets stream state first).2 ++
        (emitOmittedLine stream (readLine host redactKnownSecrets stream state
          first).1).2 ++
        (readLine host redactKnownSecrets stream {} last).2 := by
  simp only [readLines, readLine_oversized oversized, List.append_nil,
    List.append_assoc]
  rfl

theorem location_shown {value : Text} (member : value ∈ shownValues) :
    (readLine plainHost id .stdout {}
      (Field.header location value).line).2.map (·.data) =
        [text "Location:" ++ value] := by
  have fit := forgotten_fits member (.header location value)
    (List.mem_cons_of_mem _ List.mem_cons_self)
  rw [readLine_short plainHost id .stdout (Nat.not_lt.mpr fit.2)]
  refine (emitLine_lost plainHost_lawful location value).trans ?_
  simp only [shownValues, List.mem_cons, List.not_mem_nil, or_false] at member
  rcases member with rfl | rfl
  · rfl
  · rfl

/-- The last record holds the value. -/
theorem forgotten_shown {value : Text} (member : value ∈ shownValues) :
    ((recordsOf plainHost id .stdout (unlines (plainStart ::
      (forgotten value).map Field.line))).map (·.data)).getLast? =
        some (text "Location:" ++ value) := by
  have lines : (forgotten value).map Field.line =
      [longLine.line, (Field.header location value).line] := rfl
  rw [recordsOf_lines (forgotten_lines member), lines,
    readLines_behind longLine_fits.2, List.map_append,
    location_shown member, List.getLast?_append,
    List.getLast?_singleton, Option.some_or]

/-- Behind a line that is too long, the value of a header shows. -/
theorem forgottenMessage_leaks :
    ¬∀ (start : Text) (fields others : List Field),
      StartsMessage plainHost start →
      List.Forall₂ Field.SameShape fields others →
      (∀ field ∈ fields, field.Fits plainHost) →
      (∀ field ∈ others, field.Fits plainHost) →
      Agree plainHost start fields others := by
  intro all
  have here : text " a" ∈ shownValues := List.mem_cons_self
  have there : text " b" ∈ shownValues :=
    List.mem_cons_of_mem _ List.mem_cons_self
  have shape : List.Forall₂ Field.SameShape (forgotten (text " a"))
      (forgotten (text " b")) :=
    .cons trivial (.cons rfl .nil)
  have agree := all plainStart _ _ plainStart_starts shape
    (forgotten_fits here) (forgotten_fits there)
  have same := agree id .stdout [] [] _ _
    ((forgotten_lines here).trans (by simp))
    ((forgotten_lines there).trans (by simp))
  have data := forgotten_shown here
  rw [same, forgotten_shown there] at data
  exact absurd data (by decide +kernel)

end Motrix.ProcessOutput
