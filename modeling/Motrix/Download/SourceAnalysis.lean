import Motrix.Lib.AsciiUnits

/-!
# Download sources

A text is looked at in a fixed order of checks.  The first one that fails
rejects it or offers corrections; what passes them all is accepted in a
canonical spelling.
-/

namespace Motrix.DownloadSource

open Lib Lib.AsciiUnits

def maxDownloadUrlBytes : Nat :=
  16384

inductive SourceProtocol where
  | http
  | https
  | ftp
  | magnet
deriving DecidableEq

def SourceProtocol.text : SourceProtocol → Text
  | http => units "http"
  | https => units "https"
  | ftp => units "ftp"
  | magnet => units "magnet"

def sourceProtocol (name : Text) : Option SourceProtocol :=
  [SourceProtocol.http, .https, .ftp, .magnet].find? (·.text == name)

inductive SourceReason where
  | missingScheme
  | invalidHost
  | invalidPort
  | controlCharacter
  | invalidUnicode
  | ambiguousBackslash
  | invalidPercentEncoding
  | credentialsInUrl
  | unsupportedProtocol
  | urlTooLong
  | ambiguousStructure
  | unescapedCharacter
  | invalidMagnet
deriving DecidableEq

structure SourceDiagnostic where
  reason : SourceReason
  start : Nat
  stop : Nat
deriving DecidableEq

inductive CorrectionAction where
  | useCanonicalUrl
  | usePathSeparators
  | encodeLiteralCharacters
deriving DecidableEq

structure SourceCorrection where
  action : CorrectionAction
  url : Text
deriving DecidableEq

inductive DownloadSourceAnalysis where
  | accepted (protocol : SourceProtocol) (sourceUrl requestUrl host : Text)
  | needsCorrection (diagnostic : SourceDiagnostic)
      (corrections : List SourceCorrection)
  | rejected (diagnostic : SourceDiagnostic)
deriving DecidableEq

def failure (reason : SourceReason) (start stop : Nat)
    (corrections : List SourceCorrection) : DownloadSourceAnalysis :=
  let diagnostic : SourceDiagnostic := ⟨reason, start, stop⟩
  if corrections = [] then .rejected diagnostic
  else .needsCorrection diagnostic corrections

def reject (reason : SourceReason) (start stop : Nat) :
    DownloadSourceAnalysis :=
  failure reason start stop []

/-! ## Units and escapes -/

/-- The first unit that stands for no character, or for a control one. -/
def invalidUnit : Nat → Text → Option (SourceReason × Nat)
  | _, [] => none
  | index, [unit] =>
      if unit ≤ 31 || unit = 127 then some (.controlCharacter, index)
      else if Utf16.isHighSurrogate unit || Utf16.isLowSurrogate unit then
        some (.invalidUnicode, index)
      else none
  | index, unit :: next :: rest =>
      if unit ≤ 31 || unit = 127 then some (.controlCharacter, index)
      else if Utf16.isHighSurrogate unit then
        if Utf16.isLowSurrogate next then invalidUnit (index + 2) rest
        else some (.invalidUnicode, index)
      else if Utf16.isLowSurrogate unit then some (.invalidUnicode, index)
      else invalidUnit (index + 1) (next :: rest)

def isHexDigit (unit : UInt16) : Bool :=
  (hexDigit unit).isSome

def hexAhead : Text → Bool
  | high :: low :: _ => isHexDigit high && isHexDigit low
  | _ => false

/-- The first percent sign that starts no escape. -/
def badPercent : Nat → Text → Option Nat
  | _, [] => none
  | index, unit :: rest =>
      if unit = 0x25 ∧ ¬ hexAhead rest then some index
      else badPercent (index + 1) rest

def escapePercents : Text → Text
  | [] => []
  | unit :: rest =>
      if unit = 0x25 ∧ ¬ hexAhead rest then
        0x25 :: 0x32 :: 0x35 :: escapePercents rest
      else unit :: escapePercents rest

def hexUnit (digit : Nat) : UInt16 :=
  UInt16.ofNat (if digit < 10 then 0x30 + digit else 0x37 + digit)

def percentByte (byte : Nat) : Text :=
  [0x25, hexUnit (byte / 16 % 16), hexUnit (byte % 16)]

/-- The bytes of a code point in UTF-8. -/
def utf8 (point : Nat) : List Nat :=
  if point < 0x80 then [point]
  else if point < 0x800 then [0xc0 + point / 0x40, 0x80 + point % 0x40]
  else if point < 0x10000 then
    [0xe0 + point / 0x1000, 0x80 + point / 0x40 % 0x40,
      0x80 + point % 0x40]
  else
    [0xf0 + point / 0x40000, 0x80 + point / 0x1000 % 0x40,
      0x80 + point / 0x40 % 0x40, 0x80 + point % 0x40]

/-- `encodeURIComponent` of a character that it does not keep. -/
def encodeURIComponent (point : Nat) : Text :=
  (utf8 point).flatMap percentByte

def isPrintable (unit : UInt16) : Bool :=
  0x20 ≤ unit && unit ≤ 0x7e

def encodeUnicode (part : Text) : Text :=
  (Utf16.codePoints part).flatMap fun point =>
    if 0x20 ≤ point ∧ point ≤ 0x7e then [UInt16.ofNat point]
    else encodeURIComponent point

/-- The space and `<`, `>`, `"`, the backtick, `{`, `}`, `|`, `^`. -/
def isUnescaped (unit : UInt16) : Bool :=
  [0x20, 0x3c, 0x3e, 0x22, 0x60, 0x7b, 0x7d, 0x7c, 0x5e].contains unit

def encodeUnescaped (raw : Text) : Text :=
  raw.flatMap fun unit =>
    if isUnescaped unit then encodeURIComponent unit.toNat else [unit]

/-! ## Parts -/

def schemeOf : Text → Option Text
  | [] => none
  | first :: rest =>
      if (isLower first || isUpper first) &&
          (rest.dropWhile isSchemeUnit).head? = some 0x3a then
        some (first :: rest.takeWhile isSchemeUnit)
      else none

structure Parts where
  authority : Text
  path : Text
  query : Text
  fragment : Text

/-- A URL with an authority, taken apart as it is written. -/
def urlParts (raw : Text) : Option Parts := do
  let behind ← behindScheme raw
  let suffix := behind.dropWhile (!endsAuthority ·)
  let rest := suffix.dropWhile (!endsPath ·)
  let parts : Parts :=
    { authority := behind.takeWhile (!endsAuthority ·)
      path := suffix.takeWhile (!endsPath ·)
      query := rest.takeWhile (!· == 0x23)
      fragment := rest.dropWhile (!· == 0x23) }
  if parts.authority = [] ∨ parts.fragment.any isLineTerminator then none
  else some parts

/-- The text in front of the query. -/
def structuralPart (raw : Text) : Text :=
  raw.takeWhile (!endsPath ·)

def dropEmptyQuery : Text → Text
  | [] => []
  | unit :: rest =>
      if unit = 0x3f ∧ (rest.head? = none ∨ rest.head? = some 0x23) then rest
      else unit :: dropEmptyQuery rest

/-- A colon, digits, and then neither digits nor a bracket. -/
def endsInPort (authority : Text) : Bool :=
  authority.tails.any fun text =>
    text.head? = some 0x3a &&
      (((text.drop 1).dropWhile isDigit).all fun unit =>
        !isDigit unit && unit ≠ 0x5d)

def rawHost (authority : Text) : Text :=
  if authority.head? = some 0x5b then
    if authority.contains 0x5d then
      authority.takeWhile (· ≠ 0x5d) ++ [0x5d]
    else []
  else authority.takeWhile (· ≠ 0x3a)

def hostRewritten (authority hostname : Text) : Bool :=
  let host := rawHost authority
  host.head? ≠ some 0x5b && host ≠ [] && host.all isPrintable &&
    host.map lowerAscii ≠ hostname

/-! ## The analysis -/

/-- The parts of a parsed URL that the analysis reads. -/
structure Url where
  hostname : Text
  host : Text
  pathname : Text
  search : Text
  href : Text

section Analysis

variable (parseUrl : Text → Option Url)

def useCanonicalUrl (url : Text) : List SourceCorrection :=
  [⟨.useCanonicalUrl, url⟩]

/-- The checks of a URL whose parts are known. -/
def analyzeParts (raw scheme : Text) (protocol : SourceProtocol)
    (parsed : Url) (parts : Parts) : DownloadSourceAnalysis :=
  let start := scheme.length + 3
  let structuralEnd := (structuralPart raw).length
  let requestPath :=
    encodeUnicode (if parts.path = [] then [0x2f] else parts.path)
  let requestQuery := encodeUnicode parts.query
  let requestUrl := protocol.text ++ 0x3a :: 0x2f :: 0x2f :: parsed.host ++
    requestPath ++ requestQuery
  let sourceUrl := requestUrl ++ encodeUnicode parts.fragment
  if parts.query = [0x3f] then
    let mark := (raw.takeWhile (· ≠ 0x3f)).length
    failure .ambiguousStructure mark (mark + 1)
      (useCanonicalUrl (dropEmptyQuery raw))
  else if parts.authority.contains 0x40 then
    reject .credentialsInUrl start (start + parts.authority.length)
  else if raw.any isUnescaped then
    let space := (raw.takeWhile (!isUnescaped ·)).length
    failure .unescapedCharacter space (space + 1)
      [⟨.encodeLiteralCharacters, encodeUnescaped raw⟩]
  else if hostRewritten parts.authority parsed.hostname ∨
      requestPath ≠ parsed.pathname ∨
      (requestQuery ≠ [] ∧ requestQuery ≠ [0x3f] ∧
        requestQuery ≠ parsed.search) then
    failure .ambiguousStructure start structuralEnd
      (useCanonicalUrl parsed.href)
  else if sourceUrl.length > maxDownloadUrlBytes then
    reject .urlTooLong 0 raw.length
  else .accepted protocol sourceUrl requestUrl parsed.host

/-- Both readings of a backslash; the second only behind the authority. -/
def backslashCorrections (raw scheme : Text) : List SourceCorrection :=
  let front := structuralPart raw
  let suffix := raw.dropWhile (!endsPath ·)
  let backslash := (front.takeWhile (· ≠ 0x5c)).length
  let behind := raw.drop (scheme.length + 3)
  let pathStart := scheme.length + 3 + (behind.takeWhile (· ≠ 0x2f)).length
  let separators : SourceCorrection :=
    { action := .usePathSeparators
      url := front.map (fun unit => if unit = 0x5c then 0x2f else unit) ++
        suffix }
  if (raw.drop (scheme.length + 1)).take 2 = [0x2f, 0x2f] ∧
      behind.contains 0x2f ∧ pathStart ≤ backslash then
    [separators,
      { action := .encodeLiteralCharacters
        url := front.flatMap (fun unit =>
          if unit = 0x5c then [0x25, 0x35, 0x43] else [unit]) ++ suffix }]
  else [separators]

def analyzeUrl (raw scheme : Text) (protocol : SourceProtocol) :
    DownloadSourceAnalysis :=
  let start := scheme.length + 1
  let structuralEnd := (structuralPart raw).length
  if (structuralPart raw).contains 0x5c then
    let backslash := ((structuralPart raw).takeWhile (· ≠ 0x5c)).length
    failure .ambiguousBackslash backslash (backslash + 1)
      (backslashCorrections raw scheme)
  else
    match parseUrl raw with
    | none =>
        let authority := (raw.drop (start + 2)).takeWhile (!endsAuthority ·)
        reject (if endsInPort authority then .invalidPort else .invalidHost)
          start structuralEnd
    | some parsed =>
        match urlParts raw with
        | none =>
            failure .ambiguousStructure start structuralEnd
              (useCanonicalUrl parsed.href)
        | some parts =>
            if parsed.hostname = [] then
              failure .ambiguousStructure start structuralEnd
                (useCanonicalUrl parsed.href)
            else analyzeParts raw scheme protocol parsed parts

variable (parseMagnet : Text → Option Bool)

/-- The parser of magnet links says whether an identity is of version 2 only. -/
def analyzeMagnet (raw scheme : Text) : DownloadSourceAnalysis :=
  let rest := raw.drop (scheme.length + 1)
  let uri := SourceProtocol.magnet.text ++ 0x3a :: rest
  if rest.head? ≠ some 0x3f then reject .invalidMagnet 0 raw.length
  else
    match parseMagnet raw with
    | some false => .accepted .magnet uri uri []
    | _ => reject .invalidMagnet 0 raw.length

def analyzeDownloadSource (raw : Text) (protocols : List SourceProtocol) :
    DownloadSourceAnalysis :=
  if raw.length > maxDownloadUrlBytes ∨
      Utf16.byteLength raw > maxDownloadUrlBytes then
    reject .urlTooLong 0 raw.length
  else
    match invalidUnit 0 raw with
    | some (reason, index) => reject reason index (index + 1)
    | none =>
        match schemeOf raw with
        | none => reject .missingScheme 0 raw.length
        | some scheme =>
            match (sourceProtocol (scheme.map lowerAscii)).filter
                (protocols.contains ·) with
            | none => reject .unsupportedProtocol 0 scheme.length
            | some protocol =>
                match badPercent 0 raw with
                | some index =>
                    failure .invalidPercentEncoding index (index + 1)
                      [⟨.encodeLiteralCharacters, escapePercents raw⟩]
                | none =>
                    if protocol = .magnet then
                      analyzeMagnet parseMagnet raw scheme
                    else analyzeUrl parseUrl raw scheme protocol

end Analysis

end Motrix.DownloadSource
