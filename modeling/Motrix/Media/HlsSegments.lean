import Motrix.Media.HlsParser
import Motrix.Lib.Except

/-!
# Media playlists line by line

What the lines of a media playlist say, read one after the other.  A tag
applies to the segments behind it wherever it stands, attribute lists are read
as lists, and numbers are exact.
-/

namespace Motrix.Media

open Motrix.Lib

/-! ## Lines -/

inductive LineKind where
  | key (attrs : Text)
  | map (attrs : Text)
  | byteRange (value : Text)
  | extinf
  | blank
  | other
  | uri (uri : Text)
  deriving DecidableEq, Repr

def lineKind (line : Text) : LineKind :=
  match afterTag "#EXT-X-KEY:" line with
  | some attrs => .key attrs
  | none =>
  match afterTag "#EXT-X-MAP:" line with
  | some attrs => .map attrs
  | none =>
  match afterTag "#EXT-X-BYTERANGE:" line with
  | some value => .byteRange value
  | none =>
      if startsWith "#EXTINF:" line then .extinf
      else if trim line = [] then .blank
      else if startsWith "#" line then .other
      else .uri (trim line)

/-- Every `EXTINF` has one URI line, and every URI line its `EXTINF`. -/
def wellPaired : Bool → List Text → Bool
  | opened, [] => !opened
  | opened, line :: rest =>
      match lineKind line with
      | .extinf => !opened && wellPaired true rest
      | .uri _ => opened && wellPaired false rest
      | _ => wellPaired opened rest

/-- Between an `EXTINF` and its URI there are blank lines and `EXT-X-BYTERANGE`
tags only. -/
def cleanGaps : Bool → List Text → Bool
  | _, [] => true
  | false, line :: rest =>
      match lineKind line with
      | .extinf => cleanGaps true rest
      | _ => cleanGaps false rest
  | true, line :: rest =>
      match lineKind line with
      | .blank => cleanGaps true rest
      | .byteRange _ => cleanGaps true rest
      | .uri _ => cleanGaps false rest
      | _ => false

def extinfCount (lines : List Text) : Nat :=
  lines.countP fun line => lineKind line = .extinf

/-- What the tags and the URI lines of a playlist do to a state. -/
structure TagOps (State Failure : Type) where
  key : State → Text → Except Failure State
  map : State → Text → Except Failure State
  byteRange : State → Text → Except Failure State
  segment : State → Text → Except Failure State

def readLines {State Failure : Type} (ops : TagOps State Failure) :
    Bool → State → List Text → Except Failure State
  | _, state, [] => .ok state
  | opened, state, line :: rest =>
      match lineKind line with
      | .key attrs => do
          let next ← ops.key state attrs
          readLines ops opened next rest
      | .map attrs => do
          let next ← ops.map state attrs
          readLines ops opened next rest
      | .byteRange value => do
          let next ← ops.byteRange state value
          readLines ops opened next rest
      | .extinf => readLines ops true state rest
      | .blank => readLines ops opened state rest
      | .other => readLines ops opened state rest
      | .uri uri =>
          if opened then do
            let next ← ops.segment state uri
            readLines ops false next rest
          else
            readLines ops opened state rest

/-! ## Values -/

def readDecimal (text : Text) : Option Nat :=
  if text ≠ [] ∧ text.all Char.isDigit ∧ decimalValue text < 2 ^ 64 then
    some (decimalValue text)
  else
    none

def hexValue (digits : Text) : Option Nat :=
  digits.foldlM (fun value digit => do
    let next ← hexDigit digit
    return value * 16 + next) 0

/-- A hexadecimal sequence of 128 bits at most. -/
def readHexadecimal : Text → Option Nat
  | '0' :: mark :: first :: rest =>
      if mark = 'x' ∨ mark = 'X' then
        (hexValue (first :: rest)).filter (· < 2 ^ 128)
      else
        none
  | _ => none

structure Subrange where
  length : Nat
  offset : Option Nat
  deriving DecidableEq, Repr

def readSubrange (value : Text) : Option Subrange := do
  let length ← readDecimal (value.takeWhile (· ≠ '@'))
  match value.dropWhile (· ≠ '@') with
  | [] => return ⟨length, none⟩
  | _ :: rest =>
      let offset ← readDecimal rest
      return ⟨length, some offset⟩

inductive AttributeValue where
  | quoted (text : Text)
  | plain (text : Text)
  deriving DecidableEq, Repr

def splitAttributes : Bool → Text → List Text
  | _, [] => [[]]
  | quoted, character :: rest =>
      if character = ',' ∧ quoted = false then
        [] :: splitAttributes false rest
      else
        match splitAttributes (quoted != (character == '"')) rest with
        | [] => [[character]]
        | first :: others => (character :: first) :: others

def isNameCharacter (character : Char) : Bool :=
  character.isUpper || character.isDigit || character == '-'

def readValue : Text → Option AttributeValue
  | '"' :: body =>
      match body.reverse with
      | '"' :: inner =>
          if inner.contains '"' then none else some (.quoted inner.reverse)
      | _ => none
  | text => if text.contains '"' then none else some (.plain text)

def readAttribute (piece : Text) : Option (Text × AttributeValue) :=
  let name := piece.takeWhile (· ≠ '=')
  match piece.dropWhile (· ≠ '=') with
  | [] => none
  | _ :: text =>
      if name ≠ [] ∧ name.all isNameCharacter then
        (readValue text).map fun value => (name, value)
      else
        none

/-- The attributes of a tag; no name is there twice. -/
def attributeList (attrs : Text) : Option (List (Text × AttributeValue)) := do
  let attributes ← (splitAttributes false attrs).mapM readAttribute
  if (attributes.map (·.1)).Nodup then return attributes else none

def findAttribute (name : String)
    (attributes : List (Text × AttributeValue)) : Option AttributeValue :=
  (attributes.find? (·.1 = name.toList)).map (·.2)

/-- The URI of a tag, a quoted text that is not empty. -/
def uriAttribute (attributes : List (Text × AttributeValue)) : Option Text :=
  match findAttribute "URI" attributes with
  | some (.quoted (first :: rest)) => some (first :: rest)
  | _ => none

structure KeyTag where
  uri : Text
  iv : Option Nat
  deriving DecidableEq, Repr

/-- The key of a tag; none for the method `NONE`. -/
def readKey (attrs : Text) : Option (Option KeyTag) := do
  let attributes ← attributeList attrs
  if findAttribute "METHOD" attributes = some (.plain "NONE".toList) then
    return none
  else if findAttribute "METHOD" attributes =
      some (.plain "AES-128".toList) then
    let uri ← uriAttribute attributes
    match findAttribute "IV" attributes with
    | none => return some ⟨uri, none⟩
    | some (.plain text) =>
        let iv ← readHexadecimal text
        return some ⟨uri, some iv⟩
    | some (.quoted _) => none
  else
    none

structure MapTag where
  uri : Text
  byteRange : Option Subrange
  deriving DecidableEq, Repr

def readMap (attrs : Text) : Option MapTag := do
  let attributes ← attributeList attrs
  let uri ← uriAttribute attributes
  match findAttribute "BYTERANGE" attributes with
  | none => return ⟨uri, none⟩
  | some (.quoted text) =>
      let range ← readSubrange text
      return ⟨uri, some range⟩
  | some (.plain _) => none

def readSequenceStart (lines : List Text) : Option Nat :=
  match lines.findSome? (afterTag "#EXT-X-MEDIA-SEQUENCE:") with
  | none => some 0
  | some value => readDecimal value

/-! ## Segments -/

/-- The key in force, the ends of the previous sub-ranges by resource, the
sub-range of the next segment, and the segments so far. -/
structure Reading where
  key : Option KeyTag := none
  ends : Text → Option Nat := fun _ => none
  byteRange : Option Subrange := none
  parts : List MediaPart := []

inductive Malformed where
  | malformed
  deriving DecidableEq, Repr

def orMalformed {Value : Type} : Option Value → Except Malformed Value
  | some value => .ok value
  | none => .error .malformed

def keyRef (sequenceNumber : Nat) (key : KeyTag) : KeyRef where
  uri := key.uri
  iv := bigEndian 16 (key.iv.getD sequenceNumber)

/-- Where a sub-range starts: where it says, or behind the previous one. -/
def subrangeOffset (ends : Text → Option Nat) (url : Text)
    (range : Subrange) : Nat :=
  range.offset.getD ((ends url).getD 0)

def endsAfter (ends : Text → Option Nat) (url : Text)
    (range : Option Subrange) : Text → Option Nat :=
  match range with
  | none => ends
  | some range => fun other =>
      if other = url then some (subrangeOffset ends url range + range.length)
      else ends other

def byteRangeOf (ends : Text → Option Nat) (url : Text) (range : Subrange) :
    ByteRange where
  offset := some (subrangeOffset ends url range)
  length := some range.length

section Reading

variable (resolveUri : Text → Text → Except ParseFailure Text)

def playlistOps (url : Text) (start : Nat) : TagOps Reading Malformed where
  key reading attrs := do
    match ← orMalformed (readKey attrs) with
    | none => return { reading with key := none }
    | some tag =>
        let uri ← orMalformed (resolveUri url tag.uri).toOption
        return { reading with key := some { tag with uri } }
  map reading attrs := do
    let tag ← orMalformed (readMap attrs)
    let resource ← orMalformed (resolveUri url tag.uri).toOption
    return { reading with
      ends := endsAfter reading.ends resource tag.byteRange }
  byteRange reading value := do
    let range ← orMalformed (readSubrange value)
    return { reading with byteRange := some range }
  segment reading uri := do
    let resource ← orMalformed (resolveUri url uri).toOption
    return { reading with
      byteRange := none
      ends := endsAfter reading.ends resource reading.byteRange
      parts := reading.parts ++ [{
        url := resource
        index := reading.parts.length
        byteRange := reading.byteRange.map
          (byteRangeOf reading.ends resource)
        key := reading.key.map (keyRef (start + reading.parts.length)) }] }

/-- The segments of a well-formed complete playlist. -/
def readPlaylist (text url : Text) : Option (List MediaPart) := do
  let lines := splitLines text
  if isComplete lines && wellPaired false lines then
    let start ← readSequenceStart lines
    let reading ← (readLines (playlistOps resolveUri url start) false {}
      lines).toOption
    return reading.parts
  else
    none

end Reading

end Motrix.Media

/-!
# The segments of a media playlist

The parser finds every segment of a well-formed playlist exactly when nothing
but blank lines and `EXT-X-BYTERANGE` tags stands between an `EXTINF` and its
URI; any other line there loses the segment.
-/

namespace Motrix.Media

open Motrix.Lib

/-! ## Kinds of lines -/

theorem trim_hash {line : Text} (hash : startsWith "#" line = true) :
    trim line ≠ [] := by
  cases line with
  | nil => cases hash
  | cons first rest =>
      have start : first = '#' := by
        unfold startsWith afterTag at hash
        by_cases same : ("#".toList.isPrefixOf (first :: rest)) = true
        · have equal : ('#' == first) = true := by
            have both : ('#' == first && List.isPrefixOf [] rest) = true := same
            exact (Bool.and_eq_true_iff.mp both).1
          exact (beq_iff_eq.mp equal).symm
        · rw [if_neg same] at hash
          cases hash
      subst start
      have kept : ('#' :: rest).dropWhile isSpace = '#' :: rest := by
        rw [List.dropWhile_cons_of_neg (by decide)]
      unfold trim
      rw [kept]
      intro empty
      have all := List.rdropWhile_eq_nil_iff.mp empty '#' List.mem_cons_self
      exact absurd all (by decide)

/-- A line with a tag starts with the hash of the tag. -/
theorem startsWith_hash {tag : String} {line after : Text}
    (isTag : tag.toList.head? = some '#')
    (found : afterTag tag line = some after) : startsWith "#" line = true := by
  unfold afterTag at found
  by_cases same : tag.toList.isPrefixOf line = true
  · cases letters : tag.toList with
    | nil =>
        rw [letters] at isTag
        cases isTag
    | cons first word =>
        rw [letters] at isTag same
        cases isTag
        cases line with
        | nil => cases same
        | cons character rest =>
            have both : ('#' == character && List.isPrefixOf word rest) =
                true := same
            have equal := (Bool.and_eq_true_iff.mp both).1
            rw [← beq_iff_eq.mp equal]
            rfl
  · rw [if_neg same] at found
    cases found

/-- A line starts with at most one of two tags. -/
theorem afterTag_apart {left right : String} {line after : Text}
    (notLeft : ¬ left.toList <+: right.toList)
    (notRight : ¬ right.toList <+: left.toList)
    (found : afterTag left line = some after) : afterTag right line = none := by
  unfold afterTag at found ⊢
  by_cases first : left.toList.isPrefixOf line = true
  · by_cases second : right.toList.isPrefixOf line = true
    · rcases List.prefix_or_prefix_of_prefix
        (List.isPrefixOf_iff_prefix.mp first)
        (List.isPrefixOf_iff_prefix.mp second) with shorter | shorter
      · exact absurd shorter notLeft
      · exact absurd shorter notRight
    · rw [if_neg second]
  · rw [if_neg first] at found
    cases found

section Scan

variable (resolveUri : Text → Text → Except ParseFailure Text) (url : Text)

/-- The effects of the tags as the parser has them. -/
def scanOps : TagOps ScanState ParseFailure where
  key := onKey resolveUri url
  map := onMap resolveUri url
  byteRange state value := .ok (onByteRange state value)
  segment state uri := onSegment resolveUri url state uri none

theorem scanLines_skip (skip : Nat) (state : ScanState) (lines : List Text) :
    scanLines resolveUri url skip state lines =
      scanLines resolveUri url 0 state (lines.drop skip) := by
  induction lines generalizing skip with
  | nil => cases skip <;> rfl
  | cons line rest induction =>
      cases skip with
      | zero => rfl
      | succ skip => exact induction skip

theorem scanLines_cons (state : ScanState) (line : Text) (rest : List Text) :
    scanLines resolveUri url 0 state (line :: rest) =
      match lineKind line with
      | .key attrs => onKey resolveUri url state attrs >>= fun next =>
          scanLines resolveUri url 0 next rest
      | .map attrs => onMap resolveUri url state attrs >>= fun next =>
          scanLines resolveUri url 0 next rest
      | .byteRange value =>
          scanLines resolveUri url 0 (onByteRange state value) rest
      | .extinf =>
          match findUriLine none rest with
          | none => scanLines resolveUri url 0 state rest
          | some found =>
              onSegment resolveUri url state found.uri found.byteRangeInline >>=
                fun next => scanLines resolveUri url 0 next
                  (rest.drop found.consumed)
      | _ => scanLines resolveUri url 0 state rest := by
  unfold lineKind
  rw [scanLines]
  cases afterTag "#EXT-X-KEY:" line with
  | some attrs => rfl
  | none =>
  cases afterTag "#EXT-X-MAP:" line with
  | some attrs => rfl
  | none =>
  cases afterTag "#EXT-X-BYTERANGE:" line with
  | some value => rfl
  | none =>
      by_cases extinf : startsWith "#EXTINF:" line = true
      · simp only [if_pos extinf]
        cases findUriLine none rest with
        | none => rfl
        | some found =>
            simp only [scanLines_skip resolveUri url found.consumed]
      · simp only [if_neg extinf]
        by_cases blank : trim line = []
        · rw [if_pos blank]
        · rw [if_neg blank]
          by_cases tag : startsWith "#" line = true
          · rw [if_pos tag]
          · rw [if_neg tag]

theorem findUriLine_cons (byteRangeInline : Option RawByteRange)
    (line : Text) (rest : List Text) :
    findUriLine byteRangeInline (line :: rest) =
      match lineKind line with
      | .blank => (findUriLine byteRangeInline rest).map fun found =>
          { found with consumed := found.consumed + 1 }
      | .byteRange value =>
          (findUriLine (some (parseByteRangeAttr (trim value))) rest).map
            fun found => { found with consumed := found.consumed + 1 }
      | .uri uri => some ⟨uri, byteRangeInline, 1⟩
      | _ => none := by
  have hashed : startsWith "#" line = true →
      afterTag "#EXT-X-BYTERANGE:" line = none →
        findUriLine byteRangeInline (line :: rest) = none := by
    intro hash noRange
    rw [findUriLine, if_neg (trim_hash hash), noRange]
    simp only [if_pos hash]
  unfold lineKind
  cases key : afterTag "#EXT-X-KEY:" line with
  | some attrs =>
      exact hashed (startsWith_hash rfl key)
        (afterTag_apart (by decide) (by decide) key)
  | none =>
  cases map : afterTag "#EXT-X-MAP:" line with
  | some attrs =>
      exact hashed (startsWith_hash rfl map)
        (afterTag_apart (by decide) (by decide) map)
  | none =>
  cases range : afterTag "#EXT-X-BYTERANGE:" line with
  | some value =>
      rw [findUriLine, if_neg (trim_hash (startsWith_hash rfl range)), range]
  | none =>
      by_cases extinf : startsWith "#EXTINF:" line = true
      · obtain ⟨after, found⟩ := Option.isSome_iff_exists.mp extinf
        simp only [if_pos extinf]
        exact hashed (startsWith_hash rfl found) range
      · simp only [if_neg extinf]
        by_cases blank : trim line = []
        · rw [findUriLine, if_pos blank, if_pos blank]
        · rw [if_neg blank]
          by_cases tag : startsWith "#" line = true
          · rw [if_pos tag]
            exact hashed tag range
          · rw [findUriLine, if_neg blank, range, if_neg tag]
            simp only [if_neg tag]

/-! ## Clean gaps -/

/-- The state with a byte range of the gap put in front of the pending one. -/
def withRange (state : ScanState) (range : Option RawByteRange) : ScanState :=
  { state with pendingByteRange := range.or state.pendingByteRange }

theorem onSegment_withRange (state : ScanState) (uri : Text)
    (range : Option RawByteRange) :
    onSegment resolveUri url (withRange state range) uri none =
      onSegment resolveUri url state uri range := by
  unfold onSegment withRange
  simp only [Option.none_or]

/-- In a clean gap the look-ahead finds the URI, and reading the gap line by
line comes to the same segment. -/
theorem findUriLine_clean (lines : List Text) (state : ScanState)
    (range : Option RawByteRange) (clean : cleanGaps true lines = true)
    (paired : wellPaired true lines = true) :
    ∃ found, findUriLine range lines = some found ∧
      readLines (scanOps resolveUri url) true (withRange state range) lines =
        (onSegment resolveUri url state found.uri found.byteRangeInline >>=
          fun next => readLines (scanOps resolveUri url) false next
            (lines.drop found.consumed)) ∧
      cleanGaps false (lines.drop found.consumed) = true ∧
      wellPaired false (lines.drop found.consumed) = true := by
  induction lines generalizing range with
  | nil => cases paired
  | cons line rest induction =>
      rw [findUriLine_cons, readLines]
      unfold cleanGaps at clean
      unfold wellPaired at paired
      cases kind : lineKind line with
      | key attrs =>
          rw [kind] at clean
          cases clean
      | map attrs =>
          rw [kind] at clean
          cases clean
      | extinf =>
          rw [kind] at clean
          cases clean
      | other =>
          rw [kind] at clean
          cases clean
      | blank =>
          rw [kind] at clean paired
          obtain ⟨found, finds, reads, cleanRest, pairedRest⟩ :=
            induction range clean paired
          refine ⟨{ found with consumed := found.consumed + 1 }, ?_, reads,
            cleanRest, pairedRest⟩
          show (findUriLine range rest).map _ = _
          rw [finds]
          rfl
      | byteRange value =>
          rw [kind] at clean paired
          obtain ⟨found, finds, reads, cleanRest, pairedRest⟩ :=
            induction (some (parseByteRangeAttr (trim value))) clean paired
          refine ⟨{ found with consumed := found.consumed + 1 }, ?_, reads,
            cleanRest, pairedRest⟩
          show (findUriLine (some (parseByteRangeAttr (trim value)))
            rest).map _ = _
          rw [finds]
          rfl
      | uri uri =>
          rw [kind] at clean paired
          refine ⟨_, rfl, ?_, clean, paired⟩
          rw [← onSegment_withRange]
          rfl

theorem scanLines_clean (lines : List Text) (state : ScanState)
    (clean : cleanGaps false lines = true)
    (paired : wellPaired false lines = true) :
    scanLines resolveUri url 0 state lines =
      readLines (scanOps resolveUri url) false state lines := by
  induction size : lines.length using Nat.strongRecOn
    generalizing lines state with
  | ind length induction =>
  cases lines with
  | nil => rfl
  | cons line rest =>
      have shorter : ∀ (tail : List Text) (next : ScanState),
          tail.length ≤ rest.length → cleanGaps false tail = true →
            wellPaired false tail = true →
              scanLines resolveUri url 0 next tail =
                readLines (scanOps resolveUri url) false next tail := by
        intro tail next bound cleanTail pairedTail
        rw [List.length_cons] at size
        exact induction tail.length (by omega) tail next cleanTail pairedTail
          rfl
      rw [scanLines_cons, readLines]
      unfold cleanGaps at clean
      unfold wellPaired at paired
      cases kind : lineKind line with
      | key attrs =>
          rw [kind] at clean paired
          apply bind_congr
          intro next
          exact shorter rest next (Nat.le_refl _) clean paired
      | map attrs =>
          rw [kind] at clean paired
          apply bind_congr
          intro next
          exact shorter rest next (Nat.le_refl _) clean paired
      | byteRange value =>
          rw [kind] at clean paired
          exact shorter rest _ (Nat.le_refl _) clean paired
      | extinf =>
          rw [kind] at clean paired
          obtain ⟨found, finds, reads, cleanRest, pairedRest⟩ :=
            findUriLine_clean resolveUri url rest state none clean paired
          simp only [finds]
          refine Eq.trans ?_ reads.symm
          apply bind_congr
          intro next
          exact shorter _ next (by rw [List.length_drop]; omega) cleanRest
            pairedRest
      | blank =>
          rw [kind] at clean paired
          exact shorter rest state (Nat.le_refl _) clean paired
      | other =>
          rw [kind] at clean paired
          exact shorter rest state (Nat.le_refl _) clean paired
      | uri uri =>
          rw [kind] at paired
          cases paired

/-! ## Counting segments -/

theorem onKey_segments {state next : ScanState} {attrs : Text}
    (applied : onKey resolveUri url state attrs = .ok next) :
    next.segments = state.segments := by
  unfold onKey at applied
  simp only at applied
  split_ifs at applied
  · cases applied
    rfl
  · obtain ⟨_, -, afterUri⟩ := bind_eq_ok.mp applied
    obtain ⟨_, -, afterResolve⟩ := bind_eq_ok.mp afterUri
    obtain ⟨_, -, afterIv⟩ := bind_eq_ok.mp afterResolve
    rw [← pure_eq_ok.mp afterIv]

theorem onMap_segments {state next : ScanState} {attrs : Text}
    (applied : onMap resolveUri url state attrs = .ok next) :
    next.segments = state.segments := by
  unfold onMap at applied
  split at applied
  · obtain ⟨_, -, afterResolve⟩ := bind_eq_ok.mp applied
    obtain ⟨_, -, afterKey⟩ := bind_eq_ok.mp afterResolve
    rw [← pure_eq_ok.mp afterKey]
  · cases applied
    rfl

theorem onSegment_segments {state next : ScanState} {uri : Text}
    {range : Option RawByteRange}
    (applied : onSegment resolveUri url state uri range = .ok next) :
    next.segments.length = state.segments.length + 1 := by
  unfold onSegment at applied
  obtain ⟨_, -, afterResolve⟩ := bind_eq_ok.mp applied
  obtain ⟨_, -, afterKey⟩ := bind_eq_ok.mp afterResolve
  rw [← pure_eq_ok.mp afterKey, List.length_append, List.length_singleton]

theorem extinfCount_cons (line : Text) (rest : List Text) :
    extinfCount (line :: rest) =
      extinfCount rest + if lineKind line = .extinf then 1 else 0 := by
  unfold extinfCount
  rw [List.countP_cons]
  simp only [decide_eq_true_eq]

/-- The look-ahead skips no other `EXTINF` and leaves clean gaps behind. -/
theorem findUriLine_skips {lines : List Text} {range : Option RawByteRange}
    {found : UriLine} (finds : findUriLine range lines = some found) :
    extinfCount (lines.drop found.consumed) = extinfCount lines ∧
      cleanGaps true lines = cleanGaps false (lines.drop found.consumed) := by
  induction lines generalizing range found with
  | nil => cases finds
  | cons line rest induction =>
      rw [findUriLine_cons] at finds
      rw [extinfCount_cons, cleanGaps]
      cases kind : lineKind line with
      | key attrs =>
          rw [kind] at finds
          cases finds
      | map attrs =>
          rw [kind] at finds
          cases finds
      | extinf =>
          rw [kind] at finds
          cases finds
      | other =>
          rw [kind] at finds
          cases finds
      | blank =>
          rw [kind] at finds
          obtain ⟨inner, further, rfl⟩ := Option.map_eq_some_iff.mp finds
          rw [if_neg nofun]
          exact induction further
      | byteRange value =>
          rw [kind] at finds
          obtain ⟨inner, further, rfl⟩ := Option.map_eq_some_iff.mp finds
          rw [if_neg nofun]
          exact induction further
      | uri uri =>
          rw [kind] at finds
          cases finds
          rw [if_neg nofun]
          exact ⟨rfl, rfl⟩

def gapLoss (lines : List Text) : Nat :=
  if cleanGaps false lines then 0 else 1

/-- Every `EXTINF` brings one segment at most, and one of them none when a gap
is not clean. -/
theorem scanLines_count (lines : List Text) {state last : ScanState}
    (scanned : scanLines resolveUri url 0 state lines = .ok last) :
    last.segments.length + gapLoss lines ≤
      state.segments.length + extinfCount lines := by
  induction size : lines.length using Nat.strongRecOn
    generalizing lines state with
  | ind length induction =>
  cases lines with
  | nil =>
      cases scanned
      exact Nat.le_refl _
  | cons line rest =>
      have shorter : ∀ (tail : List Text) (next : ScanState),
          tail.length ≤ rest.length →
            scanLines resolveUri url 0 next tail = .ok last →
              last.segments.length + gapLoss tail ≤
                next.segments.length + extinfCount tail := by
        intro tail next bound further
        rw [List.length_cons] at size
        exact induction tail.length (by omega) tail further rfl
      have same : lineKind line ≠ .extinf →
          gapLoss (line :: rest) = gapLoss rest ∧
            extinfCount (line :: rest) = extinfCount rest := by
        intro noExtinf
        rw [extinfCount_cons, if_neg noExtinf]
        refine ⟨?_, rfl⟩
        unfold gapLoss
        rw [cleanGaps]
        split
        · next extinf => exact absurd extinf noExtinf
        · rfl
      rw [scanLines_cons] at scanned
      cases kind : lineKind line with
      | key attrs =>
          rw [kind] at scanned
          obtain ⟨next, applied, further⟩ := bind_eq_ok.mp scanned
          have count := shorter rest next (Nat.le_refl _) further
          rw [onKey_segments resolveUri url applied] at count
          obtain ⟨loss, extinfs⟩ := same (by rw [kind]; exact nofun)
          rw [loss, extinfs]
          exact count
      | map attrs =>
          rw [kind] at scanned
          obtain ⟨next, applied, further⟩ := bind_eq_ok.mp scanned
          have count := shorter rest next (Nat.le_refl _) further
          rw [onMap_segments resolveUri url applied] at count
          obtain ⟨loss, extinfs⟩ := same (by rw [kind]; exact nofun)
          rw [loss, extinfs]
          exact count
      | byteRange value =>
          rw [kind] at scanned
          have count := shorter rest _ (Nat.le_refl _) scanned
          obtain ⟨loss, extinfs⟩ := same (by rw [kind]; exact nofun)
          rw [loss, extinfs]
          exact count
      | blank =>
          rw [kind] at scanned
          obtain ⟨loss, extinfs⟩ := same (by rw [kind]; exact nofun)
          rw [loss, extinfs]
          exact shorter rest state (Nat.le_refl _) scanned
      | other =>
          rw [kind] at scanned
          obtain ⟨loss, extinfs⟩ := same (by rw [kind]; exact nofun)
          rw [loss, extinfs]
          exact shorter rest state (Nat.le_refl _) scanned
      | uri uri =>
          rw [kind] at scanned
          obtain ⟨loss, extinfs⟩ := same (by rw [kind]; exact nofun)
          rw [loss, extinfs]
          exact shorter rest state (Nat.le_refl _) scanned
      | extinf =>
          rw [kind] at scanned
          rw [extinfCount_cons, if_pos kind]
          simp only at scanned
          cases finds : findUriLine none rest with
          | none =>
              rw [finds] at scanned
              have count := shorter rest state (Nat.le_refl _) scanned
              have loss : gapLoss (line :: rest) ≤ 1 := by
                unfold gapLoss
                split_ifs
                · exact Nat.zero_le _
                · exact Nat.le_refl _
              omega
          | some found =>
              rw [finds] at scanned
              obtain ⟨next, applied, further⟩ := bind_eq_ok.mp scanned
              obtain ⟨extinfs, gaps⟩ := findUriLine_skips finds
              have count := shorter (rest.drop found.consumed) next
                (by rw [List.length_drop]; omega) further
              have loss : gapLoss (line :: rest) =
                  gapLoss (rest.drop found.consumed) := by
                unfold gapLoss
                rw [← gaps, cleanGaps, kind]
              have one := onSegment_segments resolveUri url applied
              omega

end Scan

/-! ## The segments of a playlist -/

section Playlist

variable (resolveUri : Text → Text → Except ParseFailure Text) (url : Text)

theorem playlistOps_segment {start : Nat} {reading next : Reading} {uri : Text}
    (applied : (playlistOps resolveUri url start).segment reading uri =
      .ok next) :
    ∃ part, next.parts = reading.parts ++ [part] ∧
      part.index = reading.parts.length ∧
      resolveUri url uri = .ok part.url := by
  obtain ⟨resource, resolved, afterResolve⟩ := bind_eq_ok.mp applied
  rw [← pure_eq_ok.mp afterResolve]
  refine ⟨_, rfl, rfl, ?_⟩
  cases outcome : resolveUri url uri with
  | error failure =>
      rw [outcome] at resolved
      cases resolved
  | ok found =>
      rw [outcome] at resolved
      cases resolved
      rfl

theorem playlistOps_parts {start : Nat} {reading next : Reading}
    {value : Text} :
    ((playlistOps resolveUri url start).key reading value = .ok next →
        next.parts = reading.parts) ∧
      ((playlistOps resolveUri url start).map reading value = .ok next →
        next.parts = reading.parts) ∧
      ((playlistOps resolveUri url start).byteRange reading value =
          .ok next →
        next.parts = reading.parts) := by
  refine ⟨?_, ?_, ?_⟩
  · intro applied
    obtain ⟨tag, -, afterTag⟩ := bind_eq_ok.mp applied
    cases tag with
    | none => rw [← pure_eq_ok.mp afterTag]
    | some tag =>
        obtain ⟨_, -, afterUri⟩ := bind_eq_ok.mp afterTag
        rw [← pure_eq_ok.mp afterUri]
  · intro applied
    obtain ⟨_, -, afterTag⟩ := bind_eq_ok.mp applied
    obtain ⟨_, -, afterUri⟩ := bind_eq_ok.mp afterTag
    rw [← pure_eq_ok.mp afterUri]
  · intro applied
    obtain ⟨_, -, afterRange⟩ := bind_eq_ok.mp applied
    rw [← pure_eq_ok.mp afterRange]

/-- The URI lines of a playlist in their order. -/
def uriLines (lines : List Text) : List Text :=
  lines.filterMap fun line =>
    match lineKind line with
    | .uri uri => some uri
    | _ => none

theorem uriLines_cons (line : Text) (rest : List Text) :
    uriLines (line :: rest) =
      match lineKind line with
      | .uri uri => uri :: uriLines rest
      | _ => uriLines rest := by
  unfold uriLines
  rw [List.filterMap_cons]
  cases lineKind line with
  | uri uri => rfl
  | _ => rfl

/-- The segments that lines add to those before them. -/
structure Added (start : Nat) (lines : List Text) (opened : Bool)
    (added : List MediaPart) : Prop where
  indices : added.map (·.index) = List.range' start added.length
  urls : added.map (fun part => Except.ok part.url) =
    (uriLines lines).map (resolveUri url)
  count : added.length = extinfCount lines + if opened then 1 else 0

/-- Every URI line makes the next segment. -/
theorem readLines_parts {start : Nat} (lines : List Text)
    {opened : Bool} {reading last : Reading}
    (paired : wellPaired opened lines = true)
    (read : readLines (playlistOps resolveUri url start) opened reading lines =
      .ok last) :
    ∃ added, last.parts = reading.parts ++ added ∧
      Added resolveUri url reading.parts.length lines opened added := by
  induction lines generalizing opened reading with
  | nil =>
      cases opened with
      | true => cases paired
      | false =>
          cases read
          exact ⟨[], (List.append_nil _).symm, rfl, rfl, rfl⟩
  | cons line rest induction =>
      have same : ∀ {next : Reading}, lineKind line ≠ .extinf →
          uriLines (line :: rest) = uriLines rest →
          next.parts = reading.parts → wellPaired opened rest = true →
          readLines (playlistOps resolveUri url start) opened next rest =
            .ok last →
          ∃ added, last.parts = reading.parts ++ added ∧
            Added resolveUri url reading.parts.length (line :: rest) opened
              added := by
        intro next noExtinf uris parts pairedRest readRest
        obtain ⟨added, grown, facts⟩ := induction pairedRest readRest
        rw [parts] at grown facts
        refine ⟨added, grown, facts.indices, ?_, ?_⟩
        · rw [uris]
          exact facts.urls
        · rw [extinfCount_cons, if_neg noExtinf]
          exact facts.count
      have uris := uriLines_cons line rest
      unfold wellPaired at paired
      rw [readLines] at read
      cases kind : lineKind line with
      | key attrs =>
          rw [kind] at paired read uris
          obtain ⟨next, applied, readRest⟩ := bind_eq_ok.mp read
          exact same (by rw [kind]; exact nofun) uris
            ((playlistOps_parts resolveUri url).1 applied) paired readRest
      | map attrs =>
          rw [kind] at paired read uris
          obtain ⟨next, applied, readRest⟩ := bind_eq_ok.mp read
          exact same (by rw [kind]; exact nofun) uris
            ((playlistOps_parts resolveUri url).2.1 applied) paired readRest
      | byteRange value =>
          rw [kind] at paired read uris
          obtain ⟨next, applied, readRest⟩ := bind_eq_ok.mp read
          exact same (by rw [kind]; exact nofun) uris
            ((playlistOps_parts resolveUri url).2.2 applied) paired readRest
      | blank =>
          rw [kind] at paired read uris
          exact same (by rw [kind]; exact nofun) uris rfl paired read
      | other =>
          rw [kind] at paired read uris
          exact same (by rw [kind]; exact nofun) uris rfl paired read
      | extinf =>
          rw [kind] at paired read uris
          obtain ⟨closed, pairedRest⟩ := Bool.and_eq_true_iff.mp paired
          obtain ⟨added, grown, facts⟩ := induction pairedRest read
          refine ⟨added, grown, facts.indices, ?_, ?_⟩
          · rw [uris]
            exact facts.urls
          · have one := facts.count
            cases opened with
            | true => cases closed
            | false =>
                rw [extinfCount_cons, if_pos kind]
                exact one
      | uri uri =>
          rw [kind] at paired read uris
          obtain ⟨isOpen, pairedRest⟩ := Bool.and_eq_true_iff.mp paired
          simp only [if_pos isOpen] at read
          obtain ⟨next, applied, readRest⟩ := bind_eq_ok.mp read
          obtain ⟨part, parts, index, resolved⟩ :=
            playlistOps_segment resolveUri url applied
          obtain ⟨added, grown, facts⟩ := induction pairedRest readRest
          refine ⟨part :: added, ?_, ?_, ?_, ?_⟩
          · rw [grown, parts, List.append_assoc]
            rfl
          · have indices := facts.indices
            rw [parts, List.length_append, List.length_singleton] at indices
            rw [List.map_cons, List.length_cons, List.range'_succ, index,
              indices]
          · rw [uris]
            simp only [List.map_cons]
            rw [facts.urls, resolved]
          · have count := facts.count
            rw [extinfCount_cons, if_neg (by rw [kind]; exact nofun),
              if_pos isOpen, List.length_cons, count]
            rfl

theorem readPlaylist_reads {text : Text} {expected : List MediaPart}
    (wellFormed : readPlaylist resolveUri text url = some expected) :
    isComplete (splitLines text) = true ∧
      wellPaired false (splitLines text) = true ∧
      ∃ start last, readLines (playlistOps resolveUri url start) false {}
        (splitLines text) = .ok last ∧ last.parts = expected := by
  unfold readPlaylist at wellFormed
  by_cases proper : (isComplete (splitLines text) &&
      wellPaired false (splitLines text)) = true
  · obtain ⟨complete, paired⟩ := Bool.and_eq_true_iff.mp proper
    rw [if_pos proper] at wellFormed
    obtain ⟨start, -, afterStart⟩ := Option.bind_eq_some_iff.mp wellFormed
    obtain ⟨last, read, parts⟩ := Option.bind_eq_some_iff.mp afterStart
    refine ⟨complete, paired, start, last, ?_, Option.some.inj parts⟩
    cases outcome : readLines (playlistOps resolveUri url start) false {}
        (splitLines text) with
    | error failure =>
        rw [outcome] at read
        cases read
    | ok reading =>
        rw [outcome] at read
        cases read
        rfl
  · rw [if_neg proper] at wellFormed
    cases wellFormed

/-- A well-formed playlist has one segment for each `EXTINF`, with the URIs of
the playlist in their order and the indices from zero. -/
theorem readPlaylist_segments {text : Text} {expected : List MediaPart}
    (wellFormed : readPlaylist resolveUri text url = some expected) :
    expected.length = extinfCount (splitLines text) ∧
      expected.map (·.index) = List.range expected.length ∧
      expected.map (fun part => Except.ok part.url) =
        (uriLines (splitLines text)).map (resolveUri url) := by
  obtain ⟨-, paired, start, last, read, parts⟩ :=
    readPlaylist_reads resolveUri url wellFormed
  obtain ⟨added, grown, facts⟩ :=
    readLines_parts resolveUri url _ paired read
  rw [List.nil_append] at grown
  rw [← parts, grown]
  refine ⟨facts.count, ?_, facts.urls⟩
  rw [List.range_eq_range']
  exact facts.indices

/-- Line by line, and with the values that the parser takes from the tags, the
lines come to the expected segments. -/
def TagsReadAlike (text : Text) (expected : List MediaPart) : Prop :=
  (readLines (scanOps resolveUri url) false
    { seq := mediaSequence (splitLines text) } (splitLines text)).map
      (·.segments) = .ok expected

theorem parseHlsMedia_segments {text : Text} {plan : SegmentPlan}
    (parsed : parseHlsMedia resolveUri text url = .ok plan) :
    ∃ last, scanLines resolveUri url 0
        { seq := mediaSequence (splitLines text) } (splitLines text) =
          .ok last ∧ plan.segments = last.segments := by
  unfold parseHlsMedia at parsed
  by_cases live : (!isComplete (splitLines text)) = true
  · rw [if_pos live] at parsed
    cases parsed
  · rw [if_neg live] at parsed
    obtain ⟨last, scanned, made⟩ := bind_eq_ok.mp parsed
    refine ⟨last, scanned, ?_⟩
    rw [← pure_eq_ok.mp made]

end Playlist

/-! A playlist of absolute URIs, with and without a tag in the gap. -/

def sampleResolve (_ uri : Text) : Except ParseFailure Text :=
  .ok uri

def cleanPlaylist : Text :=
  ("#EXTM3U\n#EXT-X-MEDIA-SEQUENCE:7\n" ++
    "#EXT-X-KEY:METHOD=AES-128,URI=\"https://h/k\"\n#EXTINF:4,\n\n" ++
    "#EXT-X-BYTERANGE:10@5\nhttps://h/a.ts\n#EXT-X-ENDLIST\n").toList

def cleanSegments : List MediaPart :=
  [{ url := "https://h/a.ts".toList
     index := 0
     byteRange := some ⟨some 5, some 10⟩
     key := some ⟨"https://h/k".toList, bigEndian 16 7⟩ }]

def gapPlaylist : Text :=
  ("#EXTM3U\n#EXTINF:4,\n#EXT-X-DISCONTINUITY\nhttps://h/a.ts\n" ++
    "#EXT-X-ENDLIST\n").toList

def gapSegments : List MediaPart :=
  [{ url := "https://h/a.ts".toList
     index := 0
     byteRange := none
     key := none }]

end Motrix.Media
