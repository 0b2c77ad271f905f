import Motrix.Log.LogText

/-!
# Redacting log fields

What is kept of a value depends on the name of its field: names of headers,
addresses without credentials, safe options of the engine, nothing of a
secret.  Records, arrays and errors are redacted field by field, within bounds
on depth, width and length.
-/

namespace Motrix.LogRedact

open Lib.AsciiUnits

/-- The plugin profile is the one without verbose logs. -/
inductive Profile where
  | application
  | plugin
  | exported
deriving DecidableEq

/-- A value of a log field; numbers are kept as their text.  An error has own
fields and maybe a cause that is not enumerable. -/
inductive LogValue where
  | null
  | undefined
  | boolean (value : Bool)
  | number (numeral : Text)
  | bigint (numeral : Text)
  | symbol (description : Text)
  | string (text : Text)
  | function
  | error (name message : Text) (stack : Option Text)
      (fields : List (Text × LogValue)) (cause : Option LogValue)
  | date (iso : Option Text)
  | url (href : Text)
  | binary (byteLength : Nat)
  | array (items : List LogValue)
  | record (fields : List (Text × LogValue))
  | otherObject

abbrev Fields := List (Text × LogValue)

def maxDepth : Nat :=
  8

def maxRecordFields : Nat :=
  256

def maxArrayItems : Nat :=
  256

def maxErrorNameChars : Nat :=
  256

def maxErrorStackChars : Nat :=
  65536

def maxFieldNameChars : Nat :=
  256

def storageKeyMaxChars : Nat :=
  32

def headerNameMaxChars : Nat :=
  128

def redactedText : LogValue :=
  .string redacted

def truncatedFieldsKey : Text :=
  units "redactionTruncatedFields"

/-! ## Field names -/

def rootLogFieldRenames : List (Text × Text) :=
  [("level", "fieldLevel"), ("time", "fieldTime"), ("msg", "fieldMsg"),
    ("pid", "fieldPid"), ("hostname", "fieldHostname"),
    ("module", "fieldModule")].map fun names =>
      (units names.1, units names.2)

def outputKey (key : Text) (depth : Nat) (profile : Profile) : Text :=
  if depth ≠ 0 ∨ profile = .exported then key
  else if profile = .plugin ∧ key = units "ts" then units "fieldTs"
  else if profile = .plugin ∧ key = units "entryId" then units "fieldEntryId"
  else if profile = .plugin ∧ key = units "logSequence" then
    units "fieldLogSequence"
  else ((rootLogFieldRenames.find? (·.1 == key)).map Prod.snd).getD key

def boundedOutputKey (key : Text) (depth index : Nat) (profile : Profile) :
    Text :=
  if key.length > maxFieldNameChars then
    units "fieldKeyTruncated" ++ numeral index
  else outputKey key depth profile

def suffixedKey (desiredKey : Text) (suffix : Nat) : Text :=
  desiredKey.take (maxFieldNameChars - (numeral suffix).length) ++
    numeral suffix

def uniqueOutputKey (hasOwn : Text → Bool) (desiredKey : Text) : Text :=
  if !hasOwn desiredKey then desiredKey
  else
    let candidates :=
      (List.range' 2 (maxRecordFields + 1)).map (suffixedKey desiredKey)
    (candidates.find? (!hasOwn ·)).getD (units "fieldNameCollision")

def hasField (target : Fields) (key : Text) : Bool :=
  target.any (·.1 == key)

def setOwnField (target : Fields) (key : Text) (value : LogValue) : Fields :=
  if hasField target key then
    target.map fun entry => if entry.1 = key then (key, value) else entry
  else target ++ [(key, value)]

/-! ## Bounds -/

def truncationMarker (count : Nat) : LogValue :=
  .string (units "[truncated:" ++ numeral count ++ units " items]")

def boundedArrayItems {Item : Type} (values : List Item) : List Item :=
  if values.length > maxArrayItems then values.take (maxArrayItems - 1)
  else values

def boundedRecordKeys {Item : Type} (keys : List Item) : List Item :=
  if keys.length > maxRecordFields then keys.take (maxRecordFields - 1)
  else keys

/-- The items that are kept, and how many are not. -/
def boundedItems (values : List LogValue) (redact : LogValue → LogValue) :
    LogValue :=
  let selected := boundedArrayItems values
  let out := selected.map redact
  .array (if values.length > maxArrayItems then
    out ++ [truncationMarker (values.length - selected.length)]
  else out)

/-! ## Values that the name of the field decides -/

section Parser

variable (parseUrl : Text → Option Url)

/-- A URL in a field for URLs. -/
def redactUrlValue (value : LogValue) (strict : Bool) : LogValue :=
  match value with
  | .string raw => .string (redactUrl parseUrl raw strict)
  | _ => .string unparseableUrl

def redactCollectionValue (value : LogValue) (strict : Bool) : LogValue :=
  match value with
  | .array items =>
      boundedItems items fun item => redactUrlValue parseUrl item strict
  | .boolean _ | .number _ => value
  | .string raw =>
      if raw.length > maxParseableLocationChars then .string unparseableUrl
      else
        match parseUrl raw with
        | some _ => .string (redactUrl parseUrl raw strict)
        | none => .string (redactLogText parseUrl raw strict)
  | _ => .string unparseableUrl

def unparseableProxy : LogValue :=
  .string (units "[unparseable-proxy]")

def redactProxy (value : LogValue) : LogValue :=
  match value with
  | .string raw =>
      if raw.length > maxParseableLocationChars then unparseableProxy
      else
        match parseUrl raw with
        | some url =>
            .string (truncateLogText (url.protocol ++ [0x2f, 0x2f] ++
              url.host))
        | none => unparseableProxy
  | _ => unparseableProxy

def redactStorageKey (value : LogValue) : LogValue :=
  match value with
  | .string raw =>
      if raw.length ≤ storageKeyMaxChars then value
      else .string (raw.take storageKeyMaxChars ++ units "…")
  | _ => redactedText

def basenameValue (value : LogValue) : LogValue :=
  match value with
  | .string raw => .string (safeBasename raw)
  | _ => .string (units "[unparseable-path]")

def isHeaderUnit (unit : UInt16) : Bool :=
  isLower unit || isUpper unit || isDigit unit ||
    (units "!#$%&'*+-.^_`|~").contains unit

def trim (text : Text) : Text :=
  (text.dropWhile isWhiteSpace).rdropWhile isWhiteSpace

def validHeaderName (raw : Text) : Option Text :=
  if raw.length > headerNameMaxChars then none
  else
    let name := trim raw
    if name = [] ∨ name.length > headerNameMaxChars ∨
        ¬ name.all isHeaderUnit then none
    else some name

def headerTruncationMarker (count : Nat) : Text :=
  units "Motrix-Redaction-Truncated-" ++ numeral count ++ units "-Headers"

/-- The name that one entry of a list of headers gives. -/
def headerName : LogValue → Option Text
  | .string text =>
      let name := text.takeWhile (· ≠ 0x3a)
      if text.contains 0x3a ∧ name ≠ [] then validHeaderName name
      else validHeaderName text
  | .record fields =>
      match (fields.find? (·.1 == units "name")).map Prod.snd with
      | some (.string text) => validHeaderName text
      | _ => none
  | _ => none

def boundedNames {Item : Type} (values : List Item)
    (name : Item → Option Text) : LogValue :=
  let selected := boundedArrayItems values
  let names := (selected.filterMap name).map LogValue.string
  .array (if values.length > maxArrayItems then
    names ++ [.string (headerTruncationMarker
      (values.length - selected.length))]
  else names)

def headerNames : LogValue → LogValue
  | .record fields => boundedNames (fields.map Prod.fst) validHeaderName
  | .array items => boundedNames items headerName
  | value => boundedNames [value] headerName

def sensitivePathKeys : List Text :=
  ["cookiejar", "cookiejarpath", "loadcookies"].map units

def safeEngineOptionKeys : List Text :=
  ["selectfile", "maxdownloadlimit", "maxuploadlimit", "seedratio"].map units

def redactedPath : LogValue :=
  .string (units "[redacted-path]")

/-- An option that may be shown is shown if it is no object. -/
def safeOption : LogValue → LogValue
  | .string text => .string (truncateLogText text)
  | .null => .null
  | .undefined => .undefined
  | .boolean value => .boolean value
  | .number numeral => .number numeral
  | _ => redactedText

def redactOption (strict : Bool) (key : Text) (value : LogValue) : LogValue :=
  let normalized := normalizeKey key
  if normalized = units "referer" then redactUrlValue parseUrl value strict
  else if sensitivePathKeys.contains normalized then redactedPath
  else if sensitiveValueKeys.contains normalized then redactedText
  else if safeEngineOptionKeys.contains normalized then safeOption value
  else redactedText

/-! ## Records -/

/-- One field of a record or an error goes into the output. -/
def addField (depth : Nat) (profile : Profile) (own : Text → Bool)
    (redact : Text → LogValue → Option LogValue) (out : Fields)
    (entry : (Text × LogValue) × Nat) : Fields :=
  let key := entry.1.1
  let safeKey := uniqueOutputKey (fun name => own name || hasField out name)
    (boundedOutputKey key depth entry.2 profile)
  if key.length > maxFieldNameChars then setOwnField out safeKey redactedText
  else
    match redact key entry.1.2 with
    | some value => setOwnField out safeKey value
    | none => out

def redactEntries (depth : Nat) (profile : Profile) (own : Text → Bool)
    (redact : Text → LogValue → Option LogValue) (skips : Text → Bool)
    (fields : Fields) : Fields :=
  let selected := boundedRecordKeys fields
  let out := (selected.zipIdx.filter fun entry => !skips entry.1.1).foldl
    (addField depth profile own redact) []
  if fields.length > maxRecordFields then
    setOwnField out truncatedFieldsKey
      (.number (numeral (fields.length - selected.length)))
  else out

def redactExtraEngineOptions (value : LogValue) (strict : Bool) : LogValue :=
  match value with
  | .record fields =>
      .record (redactEntries 1 .application (fun _ => false)
        (fun key value => some (redactOption parseUrl strict key value))
        (fun _ => false) fields)
  | _ => redactedText

def nameKey : Text :=
  units "name"

def messageKey : Text :=
  units "message"

def stackKey : Text :=
  units "stack"

def causeKey : Text :=
  units "cause"

/-- The cause of an error, among its fields or not. -/
def ownCause (fields : Fields) (cause : Option LogValue) : Option LogValue :=
  ((fields.find? (·.1 == causeKey)).map Prod.snd).or cause

def redactStack (profile : Profile) (stack : Option Text) : Option Text :=
  match stack with
  | none => none
  | some stack =>
      if stack = [] then none
      else some (redactLogText parseUrl
        (truncateText stack maxErrorStackChars) (profile = .exported))

def redactError (depth : Nat) (profile : Profile)
    (redact : Text → LogValue → Option LogValue) (name message : Text)
    (stack : Option Text) (fields : Fields) (cause : Option LogValue) :
    LogValue :=
  let outStack := redactStack parseUrl profile stack
  let own := fun key => key = nameKey || key = messageKey ||
    (outStack.isSome && key = stackKey)
  let skips := fun key => key = nameKey || key = messageKey || key = stackKey
  let out := redactEntries depth profile own redact skips fields
  let outFields :=
    if (boundedRecordKeys fields).any (·.1 == causeKey) then out
    else
      match ownCause fields cause with
      | none => out
      | some cause =>
          match redact causeKey cause with
          | some value => setOwnField out causeKey value
          | none => out
  .error (truncateText name maxErrorNameChars)
    (redactLogText parseUrl message (profile = .exported)) outStack outFields
    none

/-! ## Values -/

def commonDropKeys : List Text :=
  ["body", "storagevalue"].map units

def pluginPathKeys : List Text :=
  ["path", "filepath"].map units

def logUrlKeys : List Text :=
  ["url", "uri", "sourceurl", "videourl", "audiourl"].map units

def logUrlCollectionKeys : List Text :=
  ["urls", "uris", "rewrittenuris"].map units

def proxyKeys : List Text :=
  ["proxy", "proxyurl", "allproxy", "httpproxy", "httpsproxy"].map units

def binarySummary (byteLength : Nat) : LogValue :=
  .string (units "[binary:" ++ numeral byteLength ++ units " bytes]")

/-- A value whose field has no say: `redact` is for what it contains. -/
def redactPlain (depth : Nat) (profile : Profile)
    (redact : Text → LogValue → Option LogValue) : LogValue → LogValue
  | .function => .string (units "[function]")
  | .error name message stack fields cause =>
      redactError parseUrl depth profile redact name message stack fields cause
  | .date (some iso) => .string iso
  | .date none => .string (units "[redacted-object]")
  | .url href => .string (redactUrl parseUrl href (profile = .exported))
  | .binary byteLength => binarySummary byteLength
  | .array items =>
      boundedItems items fun item => (redact [] item).getD redactedText
  | .record fields =>
      .record (redactEntries depth profile (fun _ => false) redact
        (fun _ => false) fields)
  | .otherObject => .string (units "[redacted-object]")
  | .string text =>
      .string (redactLogText parseUrl text (profile = .exported))
  | .bigint numeral => .string (numeral ++ units "n")
  | .symbol description =>
      if description = [] then .string (units "[symbol]")
      else .string (units "[symbol:" ++
        truncateText description maxErrorNameChars ++ units "]")
  | .null => .null
  | .undefined => .undefined
  | .boolean value => .boolean value
  | .number numeral => .number numeral

/-- The choice by the name of the field. -/
def redactKeyed (depth : Nat) (profile : Profile)
    (redact : Text → LogValue → Option LogValue) (normalized : Text)
    (value : LogValue) : LogValue :=
  let strict := decide (profile = .exported)
  if normalized = units "extraengineoptions" then
    redactExtraEngineOptions parseUrl value strict
  else if sensitiveValueKeys.contains normalized then redactedText
  else if sensitivePathKeys.contains normalized then redactedPath
  else if logUrlKeys.contains normalized then
    redactUrlValue parseUrl value strict
  else if logUrlCollectionKeys.contains normalized then
    redactCollectionValue parseUrl value strict
  else if proxyKeys.contains normalized then
    match value with
    | .boolean _ | .number _ => value
    | _ => redactProxy parseUrl value
  else if normalized = units "storagekey" then redactStorageKey value
  else if profile ≠ .application ∧ pluginPathKeys.contains normalized then
    basenameValue value
  else redactPlain parseUrl depth profile redact value

def redactHeaders (profile : Profile) (value : LogValue) : Option LogValue :=
  match value with
  | .boolean _ | .number _ => some value
  | _ => if profile = .application then some (headerNames value) else none

/-- The value of a field `maxDepth + 1 - remaining` levels down; `none` leaves
the field out.  A tree has no cycles, so no object is met inside itself. -/
def redactValue (profile : Profile) :
    Nat → Text → LogValue → Option LogValue
  | 0, _, _ => some (.string (units "[max-depth]"))
  | remaining + 1, key, value =>
      let normalized := normalizeKey key
      if commonDropKeys.contains normalized then none
      else
        match value with
        | .null => some .null
        | .undefined => some .undefined
        | value =>
            if normalized = units "headers" then redactHeaders profile value
            else
              some (redactKeyed parseUrl (maxDepth - remaining) profile
                (redactValue profile remaining) normalized value)

def redactLogFields (profile : Profile) (fields : Fields) : Fields :=
  redactEntries 0 profile (fun _ => false)
    (redactValue parseUrl profile maxDepth) (fun _ => false) fields

end Parser

end Motrix.LogRedact
