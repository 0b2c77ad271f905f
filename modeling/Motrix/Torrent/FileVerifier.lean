import Motrix.Lib.Ranges

/-!
# The check of a payload against its torrent

The selected files are laid out as ranges of pieces.  Once every declared file
has been looked at, each of those pieces is read from the files it covers and
hashed.  The files do not change meanwhile, so that neither their stamps nor
the handle that is kept open between two reads make a difference.
-/

namespace Motrix.BtFileVerifier

open Lib

def readBytes : Nat :=
  1024 * 1024

def maxExamples : Nat :=
  10

def maxSafeInteger : Nat :=
  9007199254740991

inductive VerifyError where
  | unsafeTorrentPath (message : String)
  | thrown (code : String)
  deriving DecidableEq, Repr

/-- What `lstat` finds; a link is one of the others. -/
inductive Stat where
  | directory
  | file (content : List UInt8)
  | other
  deriving DecidableEq, Repr

/-- A static tree of files, and what else the host computes. -/
structure FileTree where
  lstat : String → Except String Stat
  realpath : String → Except String String
  isAbsolute : String → Bool
  resolve : String → String
  dirname : String → String
  basename : String → String
  join : String → String → String
  /-- `normalize('NFC').toLowerCase()` -/
  fold : String → String
  /-- The digest in hexadecimal digits. -/
  sha1 : List UInt8 → String
  /-- How many bytes a read at a position has to offer. -/
  offered : Nat → Nat

structure TorrentFile where
  path : String
  length : Nat
  offset : Nat
  padding : Bool
  /-- The parts of `pathInsideRoot`, which a single file has not. -/
  relative : Option (List String)
  deriving DecidableEq, Repr

/-- What the two parsers read from the metadata. -/
structure EngineTorrent where
  multiFile : Bool
  files : List TorrentFile
  pieceLength : Option Nat
  length : Option Nat
  pieces : Option (List String)
  deriving DecidableEq, Repr

structure VerifyBtFilesInput where
  torrent : EngineTorrent
  payloadPath : String
  selectedFiles : Option (List Int)
  deriving DecidableEq, Repr

structure BtVerificationResult where
  complete : Bool
  checkedPieces : Nat
  totalPieces : Nat
  validPieces : Nat
  missingFiles : List String
  invalidFiles : List String
  deriving DecidableEq, Repr

structure Entry extends TorrentFile where
  absolute : String
  deriving DecidableEq, Repr

namespace Entry

def endOffset (entry : Entry) : Nat :=
  entry.offset + entry.length

end Entry

variable (tree : FileTree)

/-! ## Selection and ranges -/

structure LaidOut where
  entries : List Entry
  names : List (List String)
  ranges : List (Nat × Nat)
  offset : Nat
  deriving DecidableEq, Repr

/-- What the files are checked against. -/
structure Plan where
  multiFile : Bool
  payload : String
  selected : List Int
  entries : List Entry
  ranges : List (Nat × Nat)
  pieceLength : Nat
  totalLength : Nat
  pieces : List String
  deriving DecidableEq, Repr

def selectedRange (pieceLength offset length : Nat) : Nat × Nat :=
  (offset / pieceLength, (offset + length - 1) / pieceLength)

def refuse (invalid : Bool) (message : String) : Except VerifyError Unit :=
  if invalid then .error (.unsafeTorrentPath message) else .ok ()

def layOutFile (payload : String) (pieceLength : Nat) (selected : List Int)
    (laid : LaidOut) (file : TorrentFile × Nat) :
    Except VerifyError LaidOut := do
  let (file, index) := file
  refuse (file.length > maxSafeInteger || file.offset != laid.offset)
    "Invalid torrent file lengths"
  let offset := laid.offset + file.length
  refuse (offset > maxSafeInteger) "Torrent length exceeds the safe range"
  let key := (file.relative.getD [tree.basename payload]).map tree.fold
  refuse (!file.padding && laid.names.contains key) "Overlapping torrent paths"
  return {
    entries := laid.entries ++ [{
      file with
      absolute := (file.relative.getD []).foldl tree.join payload
    }]
    names := if file.padding then laid.names else laid.names ++ [key]
    ranges :=
      if selected.contains index && file.length != 0 then
        Ranges.push (selectedRange pieceLength file.offset file.length)
          laid.ranges
      else laid.ranges
    offset
  }

/-- A name below another one. -/
def overlapping (names : List (List String)) : Bool :=
  names.any fun name =>
    (List.range' 1 (name.length - 1)).any fun count =>
      names.contains (name.take count)

/-- The piece length, the total length and the digests. -/
def pieceTable (torrent : EngineTorrent) :
    Except VerifyError (Nat × Nat × List String) :=
  let pieceLength := torrent.pieceLength.getD 0
  match torrent.length, torrent.pieces with
  | some totalLength, some pieces =>
      if 0 < pieceLength ∧ pieceLength ≤ maxSafeInteger ∧
          totalLength ≤ maxSafeInteger ∧
            pieces.length = (totalLength + pieceLength - 1) / pieceLength then
        .ok (pieceLength, totalLength, pieces)
      else .error (.unsafeTorrentPath "Invalid torrent piece table")
  | _, _ => .error (.unsafeTorrentPath "Invalid torrent piece table")

def selection (input : VerifyBtFilesInput) : Except VerifyError (List Int) := do
  let count := input.torrent.files.length
  let named := input.selectedFiles.getD []
  let selected :=
    if named.isEmpty then (List.range count).map Int.ofNat else named
  refuse (selected.any fun index => index < 0 || (count : Int) ≤ index)
    "Invalid torrent file selection"
  return selected

def prepare (input : VerifyBtFilesInput) : Except VerifyError Plan := do
  let (pieceLength, totalLength, pieces) ← pieceTable input.torrent
  let selected ← selection input
  refuse (!tree.isAbsolute input.payloadPath ||
      input.payloadPath.toList.contains '\x00')
    "The payload path must be absolute"
  let root := tree.resolve input.payloadPath
  let parent ← (tree.realpath (tree.dirname root)).mapError .thrown
  let payload := tree.join parent (tree.basename root)
  let laid ← input.torrent.files.zipIdx.foldlM
    (layOutFile tree payload pieceLength selected) ⟨[], [], [], 0⟩
  refuse (laid.offset != totalLength) "Invalid total torrent length"
  refuse (overlapping laid.names) "Overlapping torrent paths"
  return {
    multiFile := input.torrent.multiFile
    payload
    selected
    entries := laid.entries
    ranges := laid.ranges
    pieceLength
    totalLength
    pieces
  }

/-! ## The declared files -/

def addExample (list : List String) (name : String) : List String :=
  if list.length < maxExamples && !list.contains name then list ++ [name]
  else list

def VerifyError.missing : VerifyError → Bool
  | .thrown code => ["ENOENT", "ENOTDIR"].contains code
  | .unsafeTorrentPath _ => false

def inspectDirectory (directory : String) : Except VerifyError Unit := do
  match ← (tree.lstat directory).mapError VerifyError.thrown with
  | .directory => return ()
  | _ =>
      throw (.unsafeTorrentPath "Torrent payload contains an unsafe directory")

def inspectDirectories : String → List String → Except VerifyError Unit
  | directory, [] => inspectDirectory tree directory
  | directory, component :: rest => do
      inspectDirectory tree directory
      inspectDirectories (tree.join directory component) rest

/-- What a regular file holds. -/
def inspect (plan : Plan) (entry : Entry) :
    Except VerifyError (List UInt8) := do
  if plan.multiFile then
    inspectDirectories tree plan.payload (entry.relative.getD []).dropLast
  match ← (tree.lstat entry.absolute).mapError VerifyError.thrown with
  | .file content =>
      let real ← (tree.realpath entry.absolute).mapError VerifyError.thrown
      if real != entry.absolute then
        throw (.unsafeTorrentPath "Torrent payload path changed")
      return content
  | _ => throw (.unsafeTorrentPath "Torrent payload is not a regular file")

def inspectEntry (plan : Plan) (result : BtVerificationResult)
    (entry : Entry × Nat) : Except VerifyError BtVerificationResult :=
  match inspect tree plan entry.1 with
  | .ok content =>
      if content.length = entry.1.length then return result
      else return {
        result with
        invalidFiles := addExample result.invalidFiles entry.1.path
      }
  | .error error =>
      if !error.missing then throw error
      else if plan.selected.contains (entry.2 : Int) then return {
        result with
        missingFiles := addExample result.missingFiles entry.1.path
      }
      else return result

def inspectLayout (plan : Plan) (result : BtVerificationResult) :
    Except VerifyError BtVerificationResult :=
  plan.entries.zipIdx.foldlM (inspectEntry tree plan) result

/-! ## Reading and hashing -/

def bytesRead (content : List UInt8) (position remaining : Nat) :
    List UInt8 :=
  (content.drop position).take
    (max 1 (min (tree.offered position) (min readBytes remaining)))

/-- The bytes read, and whether the file had all of them. -/
def readAll (content : List UInt8) (position remaining : Nat) :
    List UInt8 × Bool :=
  if remaining = 0 then ([], true)
  else
    let bytes := bytesRead tree content position remaining
    if bytes.length = 0 then ([], false)
    else
      let later :=
        readAll content (position + bytes.length) (remaining - bytes.length)
      (bytes ++ later.1, later.2)
termination_by remaining
decreasing_by
  next more offered =>
    exact Nat.sub_lt (Nat.pos_of_ne_zero more) (Nat.pos_of_ne_zero offered)

/-- A piece while it is hashed. -/
structure Hashing where
  bytes : List UInt8
  valid : Bool
  result : BtVerificationResult
  deriving DecidableEq, Repr

def read (plan : Plan) (entry : Entry) (position length : Nat)
    (hash : Hashing) : Except VerifyError Hashing :=
  match inspect tree plan entry with
  | .ok content =>
      let answer :=
        if content.length = entry.length then
          readAll tree content position length
        else ([], false)
      return {
        bytes := hash.bytes ++ answer.1
        valid := hash.valid && answer.2
        result := if answer.2 then hash.result else {
          hash.result with
          invalidFiles := addExample hash.result.invalidFiles entry.path
        }
      }
  | .error error =>
      if !error.missing then throw error
      else return {
        hash with
        valid := false
        result := {
          hash.result with
          missingFiles := addExample hash.result.missingFiles entry.path
        }
      }

/-- The files from `fileIndex` on are read up to the end of the piece. -/
def hashLoop (plan : Plan) (endOffset : Nat) (cursor : List Entry)
    (position : Nat) (hash : Hashing) :
    Except VerifyError (List Entry × Hashing) :=
  if position < endOffset then
    match cursor with
    | [] => throw (.thrown "TypeError")
    | entry :: later =>
        if entry.endOffset ≤ position then
          hashLoop plan endOffset later position hash
        else do
          let length := min endOffset entry.endOffset - position
          let hash ←
            read tree plan entry (position - entry.offset) length hash
          hashLoop plan endOffset (entry :: later) (position + length) hash
  else return (cursor, hash)
termination_by cursor.length + (endOffset - position)
decreasing_by
  · exact Nat.add_lt_add_right (Nat.lt_succ_self _) _
  · simp only [List.length_cons]
    omega

/-- The result so far, and the bytes hashed for each piece. -/
structure Run where
  result : BtVerificationResult
  hashed : List (Nat × List UInt8)
  deriving DecidableEq, Repr

def checkPiece (plan : Plan) (state : List Entry × Run) (piece : Nat) :
    Except VerifyError (List Entry × Run) := do
  let position := piece * plan.pieceLength
  let endOffset := min (position + plan.pieceLength) plan.totalLength
  let (cursor, hash) ← hashLoop tree plan endOffset state.1 position {
    bytes := []
    valid := true
    result := state.2.result
  }
  let sound := hash.valid && plan.pieces[piece]? == some (tree.sha1 hash.bytes)
  return (cursor, {
    result := {
      hash.result with
      checkedPieces := hash.result.checkedPieces + 1
      validPieces := hash.result.validPieces + sound.toNat
    }
    hashed := state.2.hashed ++ [(piece, hash.bytes)]
  })

def checkRange (plan : Plan) (run : Run) (range : Nat × Nat) :
    Except VerifyError Run := do
  let cursor := plan.entries.dropWhile fun entry =>
    entry.endOffset ≤ range.1 * plan.pieceLength
  let (_, run) ← (List.range' range.1 (range.2 + 1 - range.1)).foldlM
    (checkPiece tree plan) (cursor, run)
  return run

def initialResult (plan : Plan) : BtVerificationResult where
  complete := false
  checkedPieces := 0
  totalPieces := plan.ranges.foldl
    (fun count range => count + (range.2 + 1 - range.1)) 0
  validPieces := 0
  missingFiles := []
  invalidFiles := []

def withVerdict (result : BtVerificationResult) : BtVerificationResult := {
  result with
  complete := result.validPieces == result.totalPieces &&
    result.missingFiles.isEmpty && result.invalidFiles.isEmpty
}

def verifyPlan (plan : Plan) : Except VerifyError Run := do
  let result ← inspectLayout tree plan (initialResult plan)
  if !result.missingFiles.isEmpty || !result.invalidFiles.isEmpty then
    return { result, hashed := [] }
  let run ← plan.ranges.foldlM (checkRange tree plan) { result, hashed := [] }
  let result ← inspectLayout tree plan run.result
  return { run with result := withVerdict result }

def verifyBtFiles (input : VerifyBtFilesInput) : Except VerifyError Run := do
  verifyPlan tree (← prepare tree input)

end Motrix.BtFileVerifier
