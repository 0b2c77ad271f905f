import Mathlib.Data.List.DropRight
import Motrix.Lib.AsciiUnits

/-!
# Redacting texts

A URL keeps its host, path and the names of its query; user, password,
fragment and the values of sensitive query names go.  In a longer text every
URL that stands in it is redacted in this way, and every bearer token.
-/

namespace Motrix.LogRedact

open Lib Lib.AsciiUnits

/-- The parts of a parsed URL that are logged. -/
structure Url where
  protocol : Text
  host : Text
  pathname : Text

def redacted : Text :=
  units "[redacted]"

def unparseableUrl : Text :=
  units "[unparseable-url]"

def maxStructuredStringChars : Nat :=
  16384

def maxParseableLocationChars : Nat :=
  65536

/-! ## Letters -/

def isWord (unit : UInt16) : Bool :=
  isLower unit || isUpper unit || isDigit unit || unit = 0x5f

def isWhiteSpace (unit : UInt16) : Bool :=
  (0x09 ≤ unit && unit ≤ 0x0d) || (0x2000 ≤ unit && unit ≤ 0x200a) ||
    [0x20, 0xa0, 0x1680, 0x2028, 0x2029, 0x202f, 0x205f, 0x3000,
      0xfeff].contains unit

/-- Lower case as far as it comes to letters of ASCII: besides these the
Kelvin sign and the dotted capital I. -/
def lowerUnits (unit : UInt16) : Text :=
  if unit = 0x212a then [0x6b]
  else if unit = 0x130 then [0x69, 0x307]
  else [lowerAscii unit]

def normalizeKey (key : Text) : Text :=
  (key.flatMap lowerUnits).filter fun unit => isLower unit || isDigit unit

def numeral (number : Nat) : Text :=
  units (toString number)

/-! ## Truncation -/

def truncationSuffix (chars maxChars : Nat) (suffix : Text) : Text :=
  units "…[truncated:" ++ numeral (chars - (maxChars - suffix.length)) ++
    units " chars]"

/-- The length of the suffix counts towards the limit and changes the number
in it, which is settled in three rounds. -/
def truncateText (value : Text) (maxChars : Nat) : Text :=
  if value.length ≤ maxChars then value
  else
    let round := truncationSuffix value.length maxChars
    let suffix := round (round (round []))
    value.take (maxChars - suffix.length) ++ suffix

def truncateLogText (value : Text) : Text :=
  truncateText value maxStructuredStringChars

def isSeparator (unit : UInt16) : Bool :=
  unit = 0x2f

def safeBasename (raw : Text) : Text :=
  if raw.length > maxParseableLocationChars then units "[unparseable-path]"
  else
    let slashed := raw.map fun unit => if unit = 0x5c then 0x2f else unit
    let name := (slashed.rdropWhile isSeparator).rtakeWhile (!isSeparator ·)
    truncateLogText name

/-! ## Query strings -/

def sensitiveValueKeys : List Text :=
  ["authorization", "proxyauthorization", "cookie", "cookies", "setcookie",
    "setcookies", "password", "passwd", "passphrase", "userpassword",
    "secret", "clientsecret", "apisecret", "secretkey", "secretaccesskey",
    "privatekey", "credential", "credentials", "rpcsecret", "token",
    "authtoken", "accesstoken", "refreshtoken", "sessiontoken", "idtoken",
    "csrftoken", "bearertoken", "localtoken", "apikey", "proxyauth",
    "mutualkey", "mutualkeyb64", "ticketkey", "nmticket", "pairnonce",
    "proxyusername", "proxypassword", "allproxyuser", "allproxypasswd",
    "httpuser", "httppasswd", "ftpuser", "ftppasswd", "authkey",
    "accesskey", "signature", "sig", "jwt", "xamzsignature",
    "xamzcredential", "xamzsecuritytoken", "xgoogsignature",
    "xgoogcredential"].map units

def sensitiveQueryKeys : List Text :=
  sensitiveValueKeys ++
    ["auth", "key", "session", "sessionid", "sid", "code"].map units

/-- A byte written as a percent escape, and what follows it. -/
def escapedByte : Text → Option (Nat × Text)
  | percent :: high :: low :: rest =>
      if percent = 0x25 then do
        let high ← hexDigit high
        let low ← hexDigit low
        some (high * 16 + low, rest)
      else none
  | _ => none

/-- The remaining bytes of a code point. -/
def continuation : Nat → Nat → Text → Option (Nat × Text)
  | 0, point, rest => some (point, rest)
  | count + 1, point, text => do
      let (byte, rest) ← escapedByte text
      if 0x80 ≤ byte ∧ byte < 0xc0 then
        continuation count (point * 0x40 + (byte - 0x80)) rest
      else none

/-- A code point written as percent escapes of its bytes: neither longer than
it needs to be nor a surrogate. -/
def escapedPoint (text : Text) : Option (Nat × Text) := do
  let (first, rest) ← escapedByte text
  if first < 0x80 then some (first, rest)
  else if 0xc0 ≤ first ∧ first < 0xe0 then
    let (point, rest) ← continuation 1 (first - 0xc0) rest
    if 0x80 ≤ point then some (point, rest) else none
  else if 0xe0 ≤ first ∧ first < 0xf0 then
    let (point, rest) ← continuation 2 (first - 0xe0) rest
    if 0x800 ≤ point ∧ ¬ (0xd800 ≤ point ∧ point ≤ 0xdfff) then
      some (point, rest)
    else none
  else if 0xf0 ≤ first ∧ first < 0xf8 then
    let (point, rest) ← continuation 3 (first - 0xf0) rest
    if 0x10000 ≤ point ∧ point ≤ 0x10ffff then some (point, rest) else none
  else none

/-- `decodeURIComponent`, which throws on an escape that is no text.  Every
step takes a unit at least. -/
def decodeURIComponent : Nat → Text → Option Text
  | _, [] => some []
  | 0, _ :: _ => none
  | steps + 1, unit :: rest =>
      if unit = 0x25 then do
        let (point, rest) ← escapedPoint (unit :: rest)
        let decoded ← decodeURIComponent steps rest
        some (Utf16.encodePoint point ++ decoded)
      else (decodeURIComponent steps rest).map (unit :: ·)

def isSensitiveQueryKey (key : Text) : Bool :=
  let spaced := key.map fun unit => if unit = 0x2b then 0x20 else unit
  match decodeURIComponent spaced.length spaced with
  | some decoded => sensitiveQueryKeys.contains (normalizeKey decoded)
  | none => true

def redactPart (strict : Bool) (part : Text) : Text :=
  let key := part.takeWhile (· ≠ 0x3d)
  if part = [] then part
  else if ¬ part.contains 0x3d then
    if strict then redacted else part
  else if strict || isSensitiveQueryKey key then key ++ 0x3d :: redacted
  else part

def redactQuery (query : Text) (strict : Bool) : Text :=
  [0x26].intercalate ((query.splitOn 0x26).map (redactPart strict))

/-! ## URLs -/

/-- The query behind a path, unless a line of the fragment ends early. -/
def queryPart : Text → Option (Option Text)
  | 0x3f :: rest =>
      if (rest.dropWhile (· ≠ 0x23)).any isLineTerminator then none
      else some (some (rest.takeWhile (· ≠ 0x23)))
  | rest => if rest.any isLineTerminator then none else some none

/-- The path and the query of a raw URL. -/
def urlParts (raw : Text) : Option (Text × Option Text) := do
  let behind ← behindScheme raw
  let suffix := behind.dropWhile (!endsAuthority ·)
  let query ← queryPart (suffix.dropWhile (!endsPath ·))
  some (suffix.takeWhile (!endsPath ·), query)

def loggedProtocols : List Text :=
  ["http:", "https:", "ftp:", "sftp:", "ws:", "wss:"].map units

section Parser

variable (parseUrl : Text → Option Url)

def redactUrl (raw : Text) (strict : Bool) : Text :=
  if raw.length > maxParseableLocationChars then unparseableUrl
  else
    match parseUrl raw with
    | none => unparseableUrl
    | some url =>
        let protocol := url.protocol.map lowerAscii
        if loggedProtocols.contains protocol then
          match urlParts raw with
          | none => unparseableUrl
          | some (path, query) =>
              let shownPath := if path = [] then [0x2f] else path
              let shownQuery :=
                match query with
                | none => []
                | some query => 0x3f :: redactQuery query strict
              truncateLogText (protocol ++ [0x2f, 0x2f] ++ url.host ++
                shownPath ++ shownQuery)
        else if protocol = units "file:" then
          truncateLogText (units "file:" ++ safeBasename url.pathname)
        else truncateLogText (protocol ++ units "<redacted>")

/-! ## Texts -/

def urlSchemes : List Text :=
  ["http://", "https://", "ftp://", "sftp://", "ws://", "wss://"].map units

/-- White space and `<`, `>`, `"` and the backtick end a URL in a text. -/
def endsUrl (unit : UInt16) : Bool :=
  isWhiteSpace unit || [0x3c, 0x3e, 0x22, 0x60].contains unit

/-- A URL at the start of a text, and what follows it. -/
def urlAt (text : Text) : Option (Text × Text) :=
  match urlSchemes.find? fun scheme =>
      scheme == (text.take scheme.length).map lowerAscii with
  | none => none
  | some scheme =>
      let body := (text.drop scheme.length).takeWhile (!endsUrl ·)
      if body = [] then none
      else
        some (text.take scheme.length ++ body,
          (text.drop scheme.length).dropWhile (!endsUrl ·))

/-- Every step takes a unit at least. -/
def replaceUrls (strict : Bool) : Nat → Bool → Text → Text
  | 0, _, text => text
  | _, _, [] => []
  | steps + 1, inWord, unit :: rest =>
      match if inWord then none else urlAt (unit :: rest) with
      | some (url, behind) =>
          redactUrl parseUrl url strict ++
            replaceUrls strict steps ((url.getLast?.map isWord).getD false)
              behind
      | none => unit :: replaceUrls strict steps (isWord unit) rest

/-- A bearer token at the start of a text: its length. -/
def bearerAt (text : Text) : Option (Text × Text) :=
  if (text.take 6).map lowerAscii = units "bearer" then
    let spaced := text.drop 6
    let token := spaced.dropWhile isWhiteSpace
    let stops := fun unit => isWhiteSpace unit || [0x2c, 0x3b].contains unit
    if spaced.length = token.length then none
    else if token.takeWhile (!stops ·) = [] then none
    else some (token.takeWhile (!stops ·), token.dropWhile (!stops ·))
  else none

def replaceBearers : Nat → Bool → Text → Text
  | 0, _, text => text
  | _, _, [] => []
  | steps + 1, inWord, unit :: rest =>
      match if inWord then none else bearerAt (unit :: rest) with
      | some (token, behind) =>
          units "Bearer " ++ redacted ++
            replaceBearers steps ((token.getLast?.map isWord).getD false)
              behind
      | none => unit :: replaceBearers steps (isWord unit) rest

def redactLogText (value : Text) (strict : Bool) : Text :=
  let replaced := replaceUrls parseUrl strict value.length false value
  truncateLogText (replaceBearers replaced.length false replaced)

end Parser

end Motrix.LogRedact
