import Mathlib.Data.List.Infix
import Motrix.Lib.Utf16

/-!
# The output of the engine process

Chunks of bytes are decoded and cut into lines.  A line that is too long is
left out as a whole; every other one is classified and redacted, which depends
on the exception and on the HTTP message it may belong to.
-/

namespace Motrix.ProcessOutput

open Lib.Utf16

abbrev Text := List UInt16

def text (literal : String) : Text :=
  encode literal.toList

def maxLineLength : Nat :=
  32 * 1024

def omittedLine : Text :=
  text "[aria2 output line omitted: exceeds 32768 characters]"

/-! ## Expressions -/

def isDigit (unit : UInt16) : Bool :=
  0x30 ≤ unit && unit ≤ 0x39

/-- `\w` -/
def isWord (unit : UInt16) : Bool :=
  isDigit unit || 0x41 ≤ unit && unit ≤ 0x5a ||
    0x61 ≤ unit && unit ≤ 0x7a || unit == 0x5f

/-- `\s` -/
def isSpace (unit : UInt16) : Bool :=
  0x09 ≤ unit && unit ≤ 0x0d || 0x2000 ≤ unit && unit ≤ 0x200a ||
    [0x20, 0xa0, 0x1680, 0x2028, 0x2029, 0x202f, 0x205f, 0x3000,
      0xfeff].contains unit

def isLineTerminator (unit : UInt16) : Bool :=
  [0x0a, 0x0d, 0x2028, 0x2029].contains unit

/-- ``[!#$%&'*+.^_`|~\w-]`` -/
def isToken (unit : UInt16) : Bool :=
  isWord unit || (text "!#$%&'*+.^`|~-").contains unit

/-- No word goes on here. -/
def atBoundary (rest : Text) : Bool :=
  !rest.head?.any isWord

/-- What follows a literal. -/
def after (literal : String) (line : Text) : Option Text :=
  if (text literal).isPrefixOf line then
    some (line.drop (text literal).length)
  else none

/-- What follows a template, where `d` stands for a digit. -/
def afterTemplate : List Char → Text → Option Text
  | [], line => some line
  | _, [] => none
  | 'd' :: template, unit :: line =>
      if isDigit unit then afterTemplate template line else none
  | character :: template, unit :: line =>
      if encodePoint character.toNat = [unit] then
        afterTemplate template line
      else none

/-- `(?:\.\d+)?` -/
def skipFraction (line : Text) : Text :=
  match line with
  | 0x2e :: rest =>
      if rest.head?.any isDigit then rest.dropWhile isDigit else line
  | _ => line

inductive HeaderLevel where
  | debug
  | info
  | notice
  | warn
  | error
  deriving DecidableEq

def headerLevels : List (String × HeaderLevel) :=
  [(" [DEBUG]", .debug), (" [INFO]", .info), (" [NOTICE]", .notice),
    (" [WARN]", .warn), (" [ERROR]", .error)]

/-- `LOG_HEADER`: the level behind a date. -/
def logHeader (line : Text) : Option HeaderLevel :=
  ((afterTemplate "dd/dd dd:dd:dd".toList line).orElse fun _ =>
      (afterTemplate "dddd-dd-dd dd:dd:dd".toList line).map skipFraction).bind
    fun rest => (headerLevels.find? fun level =>
      (after level.1 rest).isSome).map (·.2)

/-- `EXCEPTION_LINE` -/
def isExceptionLine (line : Text) : Bool :=
  (after "Exception:" (line.dropWhile isSpace)).isSome ||
    (after "->" (line.dropWhile isSpace)).isSome

/-- The digits behind a label that no word precedes, if their number is
right and no word follows. -/
def numberAfter (label : String) (fits : Text → Bool) :
    Option UInt16 → Text → Option Text
  | _, [] => none
  | previous, unit :: rest =>
      let digits := (after label (unit :: rest)).map fun found =>
        (found.takeWhile isDigit, found.dropWhile isDigit)
      match digits.filter fun found => !previous.any isWord &&
          fits found.1 && atBoundary found.2 with
      | some found => some found.1
      | none => numberAfter label fits (some unit) rest

/-- `\bCUID#(\d{1,20})\b` -/
def cuidOf (data : Text) : Option Text :=
  numberAfter "CUID#" (fun digits =>
    1 ≤ digits.length && digits.length ≤ 20) none data

/-- `\berrorCode=(\d{1,3})\b` -/
def errorCodeOf (data : Text) : Option Text :=
  numberAfter "errorCode=" (fun digits =>
    1 ≤ digits.length && digits.length ≤ 3) none data

/-- `\bstatus=([1-5]\d{2})\b` -/
def statusOf (data : Text) : Option Text :=
  numberAfter "status=" (fun digits => digits.length = 3 &&
    digits.head?.any fun unit => 0x31 ≤ unit && unit ≤ 0x35) none data

/-- `Number` of digits. -/
def toNumber (digits : Text) : Nat :=
  digits.foldl (fun number unit => number * 10 + (unit.toNat - 0x30)) 0

def includes (data : Text) (literal : String) : Bool :=
  data.tails.any fun tail => (text literal).isPrefixOf tail

/-- `HTTP\/\d(?:\.\d)?` and what follows it. -/
def afterVersion (line : Text) : Option Text :=
  (afterTemplate "HTTP/d.d".toList line).orElse fun _ =>
    afterTemplate "HTTP/d".toList line

def methods : List String :=
  ["GET", "HEAD", "POST", "PUT", "DELETE", "OPTIONS", "PATCH", "CONNECT"]

/-- The redacted request line of a method. -/
def requestOf (line : Text) (method : String) : Option Text :=
  (after (method ++ " ") line).bind fun rest =>
    let version := (rest.dropWhile fun unit => !isSpace unit).drop 1
    if rest.head?.any (fun unit => !isSpace unit) &&
        (rest.dropWhile fun unit => !isSpace unit).head? == some 0x20 &&
        afterVersion version == some [] then
      some (text method ++ text " [redacted] " ++ version)
    else none

def requestLine (line : Text) : Option Text :=
  methods.findSome? (requestOf line)

/-- `/^HTTP\/\d(?:\.\d)? \d{3}\b/` -/
def isStatusLine (line : Text) : Bool :=
  ((afterVersion line).bind (afterTemplate " ddd".toList)).any atBoundary

/-- ``/^\s*([!#$%&'*+.^_`|~\w-]+):/`` -/
def headerName (line : Text) : Option Text :=
  let body := line.dropWhile isSpace
  if body.head?.any isToken && (body.dropWhile isToken).head? == some 0x3a then
    some (body.takeWhile isToken)
  else none

def lowerUnit (unit : UInt16) : UInt16 :=
  if 0x41 ≤ unit && unit ≤ 0x5a then unit + 0x20 else unit

/-- The names of `SENSITIVE_HEADER`. -/
def isSensitiveName (name : Text) : Bool :=
  let lower := name.map lowerUnit
  ["authorization", "proxy-authorization", "cookie", "set-cookie",
      "referer"].any (fun known => lower == text known) ||
    (text "x-").isPrefixOf lower && 2 < lower.length ||
    ["token", "secret", "credential", "api-key"].any fun ending =>
      (text ending).isSuffixOf lower

/-- Where `SENSITIVE_HEADER` matches: what stands before it, the name, and
what follows the line. -/
def sensitiveHeader : Option UInt16 → Text → Option (Text × Text × Text)
  | _, [] => none
  | previous, unit :: rest =>
      let inName := fun unit => isWord unit || unit == 0x2d
      let name := (unit :: rest).takeWhile inName
      let behind := ((unit :: rest).dropWhile inName).dropWhile isSpace
      if previous.any isWord != isWord unit && isSensitiveName name &&
          behind.head? == some 0x3a then
        some ([], name, behind.dropWhile fun unit => !isLineTerminator unit)
      else
        (sensitiveHeader (some unit) rest).map fun found =>
          (unit :: found.1, found.2)

/-! ## Lines -/

inductive OutputLevel where
  | debug
  | info
  | warn
  | error
  deriving DecidableEq

inductive OutputStream where
  | stdout
  | stderr
  deriving DecidableEq

structure Aria2OutputRecord where
  level : OutputLevel
  message : String
  stream : OutputStream
  data : Text
  cuid : Option Text := none
  aria2ErrorCode : Option Nat := none
  httpStatus : Option Nat := none
  deriving DecidableEq

structure ExceptionContext where
  level : OutputLevel
  cuid : Option Text
  aria2ErrorCode : Option Nat
  deriving DecidableEq

structure LineState where
  context : Option ExceptionContext := none
  redactedHeader : Bool := false
  httpHeaders : Bool := false
  deriving DecidableEq

/-- `redactUrls` is the last step of `sanitize`, which keeps the origin of a
URL and cuts a text that is very long. -/
structure Host where
  stripVTControlCharacters : Text → Text
  redactUrls : Text → Text

variable (host : Host) (redactKnownSecrets : Text → Text)
  (stream : OutputStream)

/-- `/^\s+\S/` -/
def isFolded (line : Text) : Bool :=
  line.head?.any isSpace && !line.all isSpace

/-- The line with the value of a sensitive header left out. -/
def redactSensitive (line : Text) : Text :=
  match sensitiveHeader none line with
  | none => line
  | some (before, name, rest) => before ++ name ++ text ": [redacted]" ++ rest

def sanitize (state : LineState) (line : Text) : Text × LineState :=
  if state.redactedHeader && isFolded line && !isExceptionLine line then
    (text "[redacted header continuation]", state)
  else if (requestLine line).isSome || isStatusLine line then
    ((requestLine line).getD line,
      { state with
        httpHeaders := true
        redactedHeader := false })
  else
    match if state.httpHeaders then headerName line else none with
    | some name =>
        (name ++ text ": [redacted]", { state with redactedHeader := true })
    | none =>
        (host.redactUrls (redactSensitive (redactKnownSecrets line)),
          { state with
            httpHeaders := false
            redactedHeader := (sensitiveHeader none line).isSome })

def OutputStream.name : OutputStream → String
  | stdout => "stdout"
  | stderr => "stderr"

/-- The record of a sanitized line, and the context it leaves. -/
def classify (context : Option ExceptionContext) (data : Text) :
    Aria2OutputRecord × Option ExceptionContext :=
  let header := logHeader data
  let continuation := isExceptionLine data
  let context := if continuation then context else none
  let level : OutputLevel :=
    if header = some .error then .error
    else if header = some .warn then .warn
    else if continuation then (context.map (·.level)).getD .error
    else if stream = .stderr then .warn
    else .debug
  let cuid := (cuidOf data).orElse fun _ => context.bind (·.cuid)
  let code := if continuation then errorCodeOf data else none
  let aria2ErrorCode := (code.map toNumber).orElse fun _ =>
    context.bind (·.aria2ErrorCode)
  let httpStatus := if continuation then statusOf data else none
  let rpcDiagnostic := includes data "RPC-DIAG"
  ({ level := if rpcDiagnostic && level == .debug then .info else level
     message :=
      if rpcDiagnostic then "aria2 RPC diagnostic"
      else if level = .error ∨ level = .warn then "aria2 engine diagnostic"
      else "aria2 " ++ stream.name
     stream
     data
     cuid
     aria2ErrorCode
     httpStatus := httpStatus.map toNumber },
    if header.isSome || continuation then
      some { level, cuid, aria2ErrorCode }
    else context)

def emitLine (state : LineState) (raw : Text) :
    LineState × List Aria2OutputRecord :=
  let line := host.stripVTControlCharacters raw
  if line.all isSpace then ({}, [])
  else
    let (data, sanitized) := sanitize host redactKnownSecrets state line
    let (record, context) := classify stream sanitized.context data
    ({ sanitized with context := context }, [record])

def emitOmittedLine (state : LineState) :
    LineState × List Aria2OutputRecord :=
  ({}, [{
    level := (state.context.map (·.level)).getD .warn
    message := "aria2 output truncated"
    stream
    data := omittedLine }])

/-! ## Chunks -/

/-- `StringDecoder`: what a chunk completes, and what is left at the end. -/
structure StringDecoder (Held : Type) where
  initial : Held
  write : Held → List UInt8 → Text × Held
  finish : Held → Text

structure Aria2ProcessOutput (Held : Type) where
  decoder : Held
  pending : Text := []
  droppingLine : Bool := false
  previousWasCr : Bool := false
  ended : Bool := false
  lineState : LineState := {}
  records : List Aria2OutputRecord := []

namespace Aria2ProcessOutput

variable {Held : Type}

def append (output : Aria2ProcessOutput Held) (piece : Text) :
    Aria2ProcessOutput Held :=
  if output.droppingLine then output
  else if maxLineLength < output.pending.length + piece.length then
    { output with
      pending := []
      droppingLine := true }
  else { output with pending := output.pending ++ piece }

def emit (output : Aria2ProcessOutput Held)
    (emitted : LineState × List Aria2OutputRecord) :
    Aria2ProcessOutput Held :=
  { output with
    lineState := emitted.1
    records := output.records ++ emitted.2 }

/-- A separator ends the line. -/
def endLine (output : Aria2ProcessOutput Held) : Aria2ProcessOutput Held :=
  { (if output.droppingLine then
        output.emit (emitOmittedLine stream output.lineState)
      else
        output.emit (emitLine host redactKnownSecrets stream output.lineState
          output.pending)) with
    pending := []
    droppingLine := false }

/-- The loop of `consume`; `piece` is the text since `start`. -/
def consumeLoop (output : Aria2ProcessOutput Held) (piece : Text) :
    Text → Aria2ProcessOutput Held
  | [] => output.append piece
  | unit :: rest =>
      if unit = 0x0a && output.previousWasCr then
        consumeLoop { output with previousWasCr := false } [] rest
      else
        let marked := { output with previousWasCr := unit == 0x0d }
        if unit = 0x0a || unit = 0x0d then
          consumeLoop
            ((marked.append piece).endLine host redactKnownSecrets stream)
            [] rest
        else consumeLoop marked (piece ++ [unit]) rest

def consume (output : Aria2ProcessOutput Held) (decoded : Text) :
    Aria2ProcessOutput Held :=
  output.consumeLoop host redactKnownSecrets stream [] decoded

variable (decoding : StringDecoder Held)

def write (output : Aria2ProcessOutput Held) (chunk : List UInt8) :
    Aria2ProcessOutput Held :=
  if output.ended then output
  else
    let (decoded, decoder) := decoding.write output.decoder chunk
    ({ output with decoder := decoder }).consume host redactKnownSecrets stream
      decoded

/-- `end` -/
def finish (output : Aria2ProcessOutput Held) : Aria2ProcessOutput Held :=
  if output.ended then output
  else
    let last := ({ output with ended := true }).consume host redactKnownSecrets
      stream (decoding.finish output.decoder)
    let flushed :=
      if last.droppingLine then
        last.emit (emitOmittedLine stream last.lineState)
      else if last.pending.isEmpty then last
      else
        last.emit (emitLine host redactKnownSecrets stream last.lineState
          last.pending)
    { flushed with
      pending := []
      lineState := { flushed.lineState with context := none } }

/-- The reader after it was given the chunks and ended. -/
def read (chunks : List (List UInt8)) : Aria2ProcessOutput Held :=
  finish host redactKnownSecrets stream decoding
    (chunks.foldl (write host redactKnownSecrets stream decoding)
      { decoder := decoding.initial })

end Aria2ProcessOutput

end Motrix.ProcessOutput
