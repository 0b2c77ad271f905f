import Mathlib.Data.List.DropRight
import Motrix.Media.SegmentPlan

/-!
# The media playlist parser

The parser of media playlists as it scans: an outer loop over the lines with a
look-ahead from each `EXTINF` to its URI.  Resolving a URI, which may throw, is
a parameter.
-/

namespace Motrix.Media

open Motrix.Lib

/-! ## Text -/

def isSpace (character : Char) : Bool :=
  let code := character.toNat
  (9 ≤ code && code ≤ 13) || code == 0x20 || code == 0xA0 ||
    code == 0x1680 || (0x2000 ≤ code && code ≤ 0x200A) || code == 0x2028 ||
    code == 0x2029 || code == 0x202F || code == 0x205F || code == 0x3000 ||
    code == 0xFEFF

def trim (text : Text) : Text :=
  (text.dropWhile isSpace).rdropWhile isSpace

/-- `text.split(/\r?\n/)` -/
def splitLines : Text → List Text
  | [] => [[]]
  | '\r' :: '\n' :: rest => [] :: splitLines rest
  | '\n' :: rest => [] :: splitLines rest
  | character :: rest =>
      match splitLines rest with
      | [] => [[character]]
      | line :: lines => (character :: line) :: lines

/-- What follows the tag in a line that starts with it. -/
def afterTag (tag : String) (line : Text) : Option Text :=
  if tag.toList.isPrefixOf line then
    some (line.drop tag.toList.length)
  else
    none

def startsWith (tag : String) (line : Text) : Bool :=
  (afterTag tag line).isSome

def decimalValue (digits : Text) : Nat :=
  digits.foldl (fun value digit => value * 10 + (digit.toNat - 48)) 0

/-- The value of a numeral without sign, fraction and exponent. -/
def number (text : Text) : Number :=
  let trimmed := trim text
  if trimmed.all Char.isDigit then finiteNumber (decimalValue trimmed) else none

/-! ## Attributes -/

/-- What follows the word, whatever the case of its letters. -/
def afterWord : Text → Text → Option Text
  | [], text => some text
  | _ :: _, [] => none
  | letter :: word, character :: text =>
      if letter.toLower == character.toLower then
        afterWord word text
      else
        none

def quotedValue : Text → Option Text
  | '"' :: body =>
      if body.contains '"' then some (body.takeWhile (· ≠ '"')) else none
  | _ => none

def unquotedValue (text : Text) : Option Text :=
  some (text.takeWhile (· ≠ ','))

/-- The first place of the text where `name=` has a value. -/
def findAttr (name : String) (value : Text → Option Text) (attrs : Text) :
    Option Text :=
  attrs.tails.findSome? fun tail =>
    (afterWord (name ++ "=").toList tail).bind value

def attr (attrs : Text) (name : String) : Option Text :=
  match findAttr name quotedValue attrs with
  | some quoted => some quoted
  | none => (findAttr name unquotedValue attrs).map trim

structure RawByteRange where
  length : Number
  offset : Option Number
  deriving DecidableEq, Repr

def parseByteRangeAttr (value : Text) : RawByteRange where
  length := number (value.takeWhile (· ≠ '@'))
  offset :=
    match value.dropWhile (· ≠ '@') with
    | [] => none
    | _ :: rest => some (number (rest.takeWhile (· ≠ '@')))

def hexDigit (character : Char) : Option Nat :=
  if '0' ≤ character && character ≤ '9' then some (character.toNat - 48)
  else if 'a' ≤ character && character ≤ 'f' then some (character.toNat - 87)
  else if 'A' ≤ character && character ≤ 'F' then some (character.toNat - 55)
  else none

/-- `parseInt` of two characters to the base 16, as it is stored in a byte. -/
def hexByte (first second : Char) : UInt8 :=
  match hexDigit first, hexDigit second with
  | some high, some low => UInt8.ofNat (high * 16 + low)
  | some high, none => UInt8.ofNat high
  | none, some low =>
      if first == '-' then 0 - UInt8.ofNat low
      else if first == '+' || isSpace first then UInt8.ofNat low
      else 0
  | none, none => 0

def hexBytes : Nat → Text → Bytes
  | count + 1, first :: second :: rest =>
      hexByte first second :: hexBytes count rest
  | _, _ => []

def dropHexPrefix : Text → Text
  | '0' :: 'x' :: rest => rest
  | '0' :: 'X' :: rest => rest
  | text => text

def padStart (length : Nat) (text : Text) : Text :=
  List.replicate (length - text.length) '0' ++ text

def parseIvHex (hex : Text) : Bytes :=
  hexBytes 16 (padStart 32 (dropHexPrefix hex))

/-! ## Running state -/

structure ActiveKey where
  uri : Text
  explicit : Bool
  ivBytes : Option Bytes
  deriving DecidableEq, Repr

structure ScanState where
  seq : Number
  activeKey : Option ActiveKey := none
  activeInit : Option InitSegment := none
  runningOffset : Text → Option Number := fun _ => none
  pendingByteRange : Option RawByteRange := none
  segments : List MediaPart := []
  index : Nat := 0

def resolveKeyForSeq (key : ActiveKey) (seq : Number) :
    Except ParseFailure KeyRef :=
  match key.explicit, key.ivBytes with
  | true, some iv => .ok ⟨key.uri, iv⟩
  | _, _ => do
      let iv ← seqNumberIv seq
      return ⟨key.uri, iv⟩

def resolveActiveKey (activeKey : Option ActiveKey) (seq : Number) :
    Except ParseFailure (Option KeyRef) :=
  match activeKey with
  | none => .ok none
  | some key => do
      let resolved ← resolveKeyForSeq key seq
      return some resolved

/-- The byte range with its offset, and the offset behind it. -/
def placeByteRange (runningOffset : Text → Option Number) (url : Text)
    (range : RawByteRange) : ByteRange × (Text → Option Number) :=
  let offset := range.offset.getD ((runningOffset url).getD (some 0))
  (⟨offset, range.length⟩,
    fun other => if other = url then some (addNumbers offset range.length)
      else runningOffset other)

/-- The optional byte range of a resource. -/
def placeRange (runningOffset : Text → Option Number) (url : Text)
    (range : Option RawByteRange) :
    Option ByteRange × (Text → Option Number) :=
  match range with
  | none => (none, runningOffset)
  | some range =>
      let placed := placeByteRange runningOffset url range
      (some placed.1, placed.2)

def keyUriAttr (attrs : Text) : Except ParseFailure Text :=
  match attr attrs "URI" with
  | some (first :: rest) => .ok (first :: rest)
  | _ => .error (.media .unsupportedEncryption "AES-128 key missing URI")

/-- The value that a key carries until a segment resolves it. -/
def placeholderIv (ivBytes : Option Bytes) (seq : Number) :
    Except ParseFailure Bytes :=
  match ivBytes with
  | some iv => .ok iv
  | none => seqNumberIv seq

def unsupportedMethod (method : Option Text) : ParseFailure :=
  .media .unsupportedEncryption ("unsupported HLS encryption method: " ++
    (method.map String.ofList).getD "undefined")

section Parser

variable (resolveUri : Text → Text → Except ParseFailure Text)

/-- `EXT-X-KEY` -/
def onKey (url : Text) (state : ScanState) (attrs : Text) :
    Except ParseFailure ScanState :=
  let method := attr attrs "METHOD"
  if method = some "NONE".toList then
    .ok { state with activeKey := none }
  else if method = some "AES-128".toList then do
    let keyUri ← keyUriAttr attrs
    let ivAttr := attr attrs "IV"
    let ivBytes := (ivAttr.filter fun iv => !iv.isEmpty).map parseIvHex
    let uri ← resolveUri url keyUri
    let _ ← placeholderIv ivBytes state.seq
    return { state with activeKey := some ⟨uri, ivAttr.isSome, ivBytes⟩ }
  else
    .error (unsupportedMethod method)

/-- `EXT-X-MAP` -/
def onMap (url : Text) (state : ScanState) (attrs : Text) :
    Except ParseFailure ScanState :=
  match attr attrs "URI" with
  | some (first :: rest) => do
      let resolvedMapUrl ← resolveUri url (first :: rest)
      let byteRangeAttr :=
        (attr attrs "BYTERANGE").filter fun value => !value.isEmpty
      let placed := placeRange state.runningOffset resolvedMapUrl
        (byteRangeAttr.map parseByteRangeAttr)
      let key ← resolveActiveKey state.activeKey state.seq
      return { state with
        activeInit := some ⟨resolvedMapUrl, placed.1, key⟩
        runningOffset := placed.2 }
  | _ => .ok state

/-- `EXT-X-BYTERANGE` in front of `EXTINF` -/
def onByteRange (state : ScanState) (value : Text) : ScanState :=
  { state with pendingByteRange := some (parseByteRangeAttr (trim value)) }

/-- The segment with the URI line of an `EXTINF`. -/
def onSegment (url : Text) (state : ScanState) (uriLine : Text)
    (byteRangeInline : Option RawByteRange) :
    Except ParseFailure ScanState := do
  let resolvedUrl ← resolveUri url uriLine
  let rawByteRange := byteRangeInline.or state.pendingByteRange
  let placed := placeRange state.runningOffset resolvedUrl rawByteRange
  let segKey ← resolveActiveKey state.activeKey state.seq
  return { state with
    pendingByteRange := none
    runningOffset := placed.2
    segments := state.segments ++
      [⟨resolvedUrl, state.index, placed.1, segKey⟩]
    index := state.index + 1
    seq := addNumbers state.seq (some 1) }

structure UriLine where
  uri : Text
  byteRangeInline : Option RawByteRange
  consumed : Nat
  deriving DecidableEq, Repr

/-- The look-ahead from an `EXTINF`: over blank lines and `EXT-X-BYTERANGE`
tags to the first line that is no tag. -/
def findUriLine (byteRangeInline : Option RawByteRange) :
    List Text → Option UriLine
  | [] => none
  | next :: rest =>
      let further := fun byteRangeInline =>
        (findUriLine byteRangeInline rest).map fun found =>
          { found with consumed := found.consumed + 1 }
      if trim next = [] then
        further byteRangeInline
      else
        match afterTag "#EXT-X-BYTERANGE:" next with
        | some value => further (some (parseByteRangeAttr (trim value)))
        | none =>
            if startsWith "#" next then none
            else some ⟨trim next, byteRangeInline, 1⟩

/-- The outer loop; the lines that a look-ahead has consumed are skipped. -/
def scanLines (url : Text) : Nat → ScanState → List Text →
    Except ParseFailure ScanState
  | _, state, [] => .ok state
  | skip + 1, state, _ :: rest => scanLines url skip state rest
  | 0, state, line :: rest =>
      match afterTag "#EXT-X-KEY:" line with
      | some attrs => do
          let next ← onKey resolveUri url state attrs
          scanLines url 0 next rest
      | none =>
      match afterTag "#EXT-X-MAP:" line with
      | some attrs => do
          let next ← onMap resolveUri url state attrs
          scanLines url 0 next rest
      | none =>
      match afterTag "#EXT-X-BYTERANGE:" line with
      | some value => scanLines url 0 (onByteRange state value) rest
      | none =>
          if startsWith "#EXTINF:" line then
            match findUriLine none rest with
            | none => scanLines url 0 state rest
            | some found => do
                let next ← onSegment resolveUri url state found.uri
                  found.byteRangeInline
                scanLines url found.consumed next rest
          else
            scanLines url 0 state rest

def playlistType (lines : List Text) : Option Text :=
  (lines.findSome? (afterTag "#EXT-X-PLAYLIST-TYPE:")).map fun value =>
    (trim value).map Char.toUpper

def hasEndlist (lines : List Text) : Bool :=
  lines.any (startsWith "#EXT-X-ENDLIST")

def isComplete (lines : List Text) : Bool :=
  hasEndlist lines || playlistType lines == some "VOD".toList

def mediaSequence (lines : List Text) : Number :=
  match lines.findSome? (afterTag "#EXT-X-MEDIA-SEQUENCE:") with
  | none => some 0
  | some value => number (trim value)

def parseHlsMedia (text url : Text) : Except ParseFailure SegmentPlan :=
  let lines := splitLines text
  if !isComplete lines then
    .error (.media .unsupportedLive "live HLS is not supported")
  else do
    let state ← scanLines resolveUri url 0 { seq := mediaSequence lines } lines
    return {
      container := if state.activeInit.isSome then .fmp4 else .mpegts
      init := state.activeInit
      segments := state.segments
      isComplete := true }

end Parser

end Motrix.Media
