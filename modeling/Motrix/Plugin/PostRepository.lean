import Mathlib.Algebra.Group.Basic
import Motrix.Lib.Except
import Motrix.Lib.Utf16
import Motrix.Lib.Table

/-!
# Post-delivery rows

A terminal task event is written once for every candidate plugin as a stable
payload whose bytes are reserved in advance.  A row that has reached its end
keeps a compact receipt.
-/

namespace Motrix.PostDelivery

open Motrix.Lib

def POST_DELIVERY_ROW_CHARGE_BYTES : Nat := 512
def POST_DELIVERY_RECEIPT_MAX_BYTES : Nat := 1024
def POST_DELIVERY_HARD_BUDGET_BYTES : Nat := 1024 * 1024 * 1024
def POST_DELIVERY_CORE_RESERVE_BYTES : Nat := 128 * 1024 * 1024
def MAX_SAFE_INTEGER : Int := 9007199254740991

def isSafeInteger (value : Int) : Bool :=
  -MAX_SAFE_INTEGER ≤ value && value ≤ MAX_SAFE_INTEGER

/-! ## JSON texts -/

/-- A number comes with the text it is printed as. -/
inductive JsonValue where
  | null
  | boolean (value : Bool)
  | number (printed : String)
  | string (value : String)
  | array (items : List JsonValue)
  | object (members : List (String × JsonValue))

def byteLength (text : String) : Nat :=
  text.utf8ByteSize

def escapeCharacter (character : Char) : String :=
  let code := character.toNat
  if code = 0x22 then "\\\""
  else if code = 0x5c then "\\\\"
  else if code = 0x08 then "\\b"
  else if code = 0x09 then "\\t"
  else if code = 0x0a then "\\n"
  else if code = 0x0c then "\\f"
  else if code = 0x0d then "\\r"
  else if code < 0x10 then "\\u000" ++ String.ofList (Nat.toDigits 16 code)
  else if code < 0x20 then "\\u00" ++ String.ofList (Nat.toDigits 16 code)
  else character.toString

/-- `JSON.stringify` of a string. -/
def quote (text : String) : String :=
  "\"" ++ String.join (text.toList.map escapeCharacter) ++ "\""

/-- `JSON.stringify` of an array of strings. -/
def stringifyStrings (texts : List String) : String :=
  "[" ++ ",".intercalate (texts.map quote) ++ "]"

/-- The order of `Array.prototype.sort` on strings. -/
def unitsLe (left right : String) : Bool :=
  decide (Utf16.encode left.toList ≤ Utf16.encode right.toList)

def sortedMembers (members : List (String × String)) :
    List (String × String) :=
  members.mergeSort fun left right => unitsLe left.1 right.1

def printedObject (members : List (String × String)) : String :=
  "\x7b" ++ ",".intercalate
    (members.map fun member => quote member.1 ++ ":" ++ member.2) ++ "\x7d"

mutual

def canonicalJson : JsonValue → String
  | .null => "null"
  | .boolean value => if value then "true" else "false"
  | .number printed => printed
  | .string value => quote value
  | .array items => "[" ++ ",".intercalate (canonicalItems items) ++ "]"
  | .object members => printedObject (sortedMembers (canonicalMembers members))

def canonicalItems : List JsonValue → List String
  | [] => []
  | item :: rest => canonicalJson item :: canonicalItems rest

def canonicalMembers : List (String × JsonValue) → List (String × String)
  | [] => []
  | (name, value) :: rest =>
      (name, canonicalJson value) :: canonicalMembers rest

end

theorem canonicalItems_strings (texts : List String) :
    canonicalItems (texts.map .string) = texts.map quote := by
  induction texts with
  | nil => rfl
  | cons text rest induction =>
      show canonicalJson (.string text) :: canonicalItems _ = _
      rw [induction]
      rfl

/-- On arrays of strings the canonical text is the plain one. -/
theorem canonicalJson_strings (texts : List String) :
    canonicalJson (.array (texts.map .string)) = stringifyStrings texts := by
  show "[" ++ ",".intercalate (canonicalItems _) ++ "]" = _
  rw [canonicalItems_strings]
  rfl

theorem byteLength_append (first last : String) :
    byteLength (first ++ last) = byteLength first + byteLength last :=
  String.utf8ByteSize_append

/-! ## Rows -/

inductive PostHookName where
  | afterComplete
  | onError
  deriving DecidableEq

def PostHookName.text : PostHookName → String
  | .afterComplete => "afterComplete"
  | .onError => "onError"

inductive PostDeliveryStatus where
  | pending
  | delivering
  | delivered
  | deadLetter
  | superseded
  deriving DecidableEq

def PostDeliveryStatus.text : PostDeliveryStatus → String
  | .pending => "pending"
  | .delivering => "delivering"
  | .delivered => "delivered"
  | .deadLetter => "dead_letter"
  | .superseded => "superseded"

def isTerminalStatus (status : PostDeliveryStatus) : Bool :=
  status == .delivered || status == .deadLetter || status == .superseded

inductive PostDeliveryPermanentReason where
  | inputInvalid
  | identityMissing
  | superseded
  | disabled
  | uninstalled
  | quarantined
  | securityRevoked
  | permissionRevoked
  | outputInvalid
  | attemptLimit
  | ageLimit
  deriving DecidableEq

def PostDeliveryPermanentReason.text : PostDeliveryPermanentReason → String
  | .inputInvalid => "input_invalid"
  | .identityMissing => "identity_missing"
  | .superseded => "superseded"
  | .disabled => "disabled"
  | .uninstalled => "uninstalled"
  | .quarantined => "quarantined"
  | .securityRevoked => "security_revoked"
  | .permissionRevoked => "permission_revoked"
  | .outputInvalid => "output_invalid"
  | .attemptLimit => "attempt_limit"
  | .ageLimit => "age_limit"

inductive PostDeliveryAdmissionReason where
  | pluginActiveRows
  | pluginActiveBytes
  | globalActiveRows
  | globalActiveBytes
  | postHardBudget
  deriving DecidableEq

def PostDeliveryAdmissionReason.text : PostDeliveryAdmissionReason → String
  | .pluginActiveRows => "plugin_active_rows"
  | .pluginActiveBytes => "plugin_active_bytes"
  | .globalActiveRows => "global_active_rows"
  | .globalActiveBytes => "global_active_bytes"
  | .postHardBudget => "post_hard_budget"

inductive PostDeliveryError where
  | eventInvalid (message : String)
  | receiptTooLarge
  | terminalCannotFit
  | reservationMismatch
  | capacityInvalid
  deriving DecidableEq

def PostDeliveryError.message : PostDeliveryError → String
  | .eventInvalid message => message
  | .receiptTooLarge => "post-delivery terminal receipt exceeds 1 KiB"
  | .terminalCannotFit => "terminal receipt cannot fit configured quota"
  | .reservationMismatch =>
      "post-delivery reservation does not match canonical bytes"
  | .capacityInvalid => "post-delivery database capacity is invalid"

structure PluginExecutableIdentity where
  pluginId : String
  version : String
  digest : String
  deriving DecidableEq

inductive InitialStatus where
  | pending
  | deadLetter
  deriving DecidableEq

structure PostDeliveryAdmission where
  deliveryId : String
  deduplicationKey : String
  hook : PostHookName
  executable : PluginExecutableIdentity
  createdGeneration : Int
  requiredPermissions : List String
  createdEffectivePermissions : List String
  occurrenceId : String
  taskId : String
  occurredAt : Int
  canonicalPayload : String
  payloadBytes : Nat
  permissionSnapshotBytes : Nat
  reservedBytes : Nat
  createdAt : Int
  initialStatus : InitialStatus
  initialReason : Option PostDeliveryPermanentReason

/-! ## Receipts -/

structure PostDeliveryTerminalReceipt where
  deliveryId : String
  pluginId : String
  hook : PostHookName
  status : PostDeliveryStatus
  completedAt : Int
  attemptCount : Nat
  reason : Option PostDeliveryPermanentReason := none

/-- The members in the order of their names. -/
def PostDeliveryTerminalReceipt.members
    (receipt : PostDeliveryTerminalReceipt) : List (String × String) :=
  [("attemptCount", toString receipt.attemptCount),
    ("completedAt", toString receipt.completedAt),
    ("deliveryId", quote receipt.deliveryId),
    ("hook", quote receipt.hook.text),
    ("pluginId", quote receipt.pluginId)] ++
  (receipt.reason.map fun reason => ("reason", quote reason.text)).toList ++
  [("status", quote receipt.status.text)]

def compactTerminalReceipt (receipt : PostDeliveryTerminalReceipt) :
    Except PostDeliveryError String :=
  let compacted := printedObject receipt.members
  if byteLength compacted > POST_DELIVERY_RECEIPT_MAX_BYTES then
    .error .receiptTooLarge
  else
    .ok compacted

/-- The bytes a receipt of that text takes in the terminal quota. -/
def receiptCharge (receipt : String) : Nat :=
  byteLength receipt + byteLength "[][]" + POST_DELIVERY_ROW_CHARGE_BYTES

theorem receiptCharge_le {receipt : PostDeliveryTerminalReceipt}
    {compacted : String}
    (compacts : compactTerminalReceipt receipt = .ok compacted) :
    receiptCharge compacted ≤ 1540 := by
  unfold compactTerminalReceipt at compacts
  dsimp only at compacts
  split at compacts
  · cases compacts
  · rename_i short
    cases compacts
    have brackets : byteLength "[][]" = 4 := by decide
    unfold receiptCharge
    rw [brackets]
    unfold POST_DELIVERY_ROW_CHARGE_BYTES
    unfold POST_DELIVERY_RECEIPT_MAX_BYTES at short
    omega

/-! ## Quotas -/

/-- A configuration `PostDeliveryQuotaConfigSchema` accepts. -/
structure PostDeliveryQuotaConfig where
  pluginActiveRows : Int
  pluginActiveBytes : Int
  globalActiveRows : Int
  globalActiveBytes : Int
  pluginTerminalRows : Int
  pluginTerminalBytes : Int
  globalTerminalRows : Int
  globalTerminalBytes : Int
  pluginActiveRowsRange : 1 ≤ pluginActiveRows ∧ pluginActiveRows ≤ 1000
  pluginActiveBytesRange : 2 * 1024 * 1024 ≤ pluginActiveBytes ∧
    pluginActiveBytes ≤ 64 * 1024 * 1024
  globalActiveRowsRange : 1000 ≤ globalActiveRows ∧ globalActiveRows ≤ 10000
  globalActiveBytesRange : 64 * 1024 * 1024 ≤ globalActiveBytes ∧
    globalActiveBytes ≤ 512 * 1024 * 1024
  pluginTerminalRowsRange : 1 ≤ pluginTerminalRows ∧
    pluginTerminalRows ≤ 4000
  pluginTerminalBytesRange : 1024 * 1024 ≤ pluginTerminalBytes ∧
    pluginTerminalBytes ≤ 4 * 1024 * 1024
  globalTerminalRowsRange : 4000 ≤ globalTerminalRows ∧
    globalTerminalRows ≤ 40000
  globalTerminalBytesRange : 4 * 1024 * 1024 ≤ globalTerminalBytes ∧
    globalTerminalBytes ≤ 40 * 1024 * 1024
  activeRowsCovered : pluginActiveRows ≤ globalActiveRows
  activeBytesCovered : pluginActiveBytes ≤ globalActiveBytes
  terminalRowsCovered : pluginTerminalRows ≤ globalTerminalRows
  terminalBytesCovered : pluginTerminalBytes ≤ globalTerminalBytes

def DEFAULT_POST_DELIVERY_QUOTA_CONFIG : PostDeliveryQuotaConfig where
  pluginActiveRows := 1000
  pluginActiveBytes := 64 * 1024 * 1024
  globalActiveRows := 10000
  globalActiveBytes := 512 * 1024 * 1024
  pluginTerminalRows := 4000
  pluginTerminalBytes := 4 * 1024 * 1024
  globalTerminalRows := 40000
  globalTerminalBytes := 40 * 1024 * 1024
  pluginActiveRowsRange := by decide
  pluginActiveBytesRange := by decide
  globalActiveRowsRange := by decide
  globalActiveBytesRange := by decide
  pluginTerminalRowsRange := by decide
  pluginTerminalBytesRange := by decide
  globalTerminalRowsRange := by decide
  globalTerminalBytesRange := by decide
  activeRowsCovered := by decide
  activeBytesCovered := by decide
  terminalRowsCovered := by decide
  terminalBytesCovered := by decide

/-! ## Materialization -/

/-- The digest and the schemas of the contexts a hook is called with. -/
structure MaterializerHost where
  sha256Hex : String → String
  hookJsonValueAccepts : JsonValue → Bool
  contextAccepts : PostHookName → JsonValue → Bool

structure PostDeliveryCandidateSnapshot where
  hook : String
  executable : PluginExecutableIdentity
  createdGeneration : Int
  requiredPermissions : List String
  createdEffectivePermissions : List String

structure PostDeliveryEventSnapshot where
  schemaVersion : Nat
  occurrenceId : String
  taskId : String
  occurredAt : Int
  payload : JsonValue

structure PostDeliveryMaterializationInput where
  event : PostDeliveryEventSnapshot
  candidates : List PostDeliveryCandidateSnapshot
  createdAt : Int

def MAX_OPAQUE_ID_BYTES : Nat := 128
def MAX_PLUGIN_ID_BYTES : Nat := 256
def MAX_VERSION_BYTES : Nat := 128
def MAX_PERMISSION_BYTES : Nat := 256
def MAX_PERMISSIONS : Nat := 256
def MESSAGE_BYTES : Nat := 2 * 1024 * 1024

def requireBoundedText (value field : String) (maxBytes : Nat) :
    Except PostDeliveryError Unit :=
  if value.isEmpty ∨ byteLength value > maxBytes then
    .error (.eventInvalid (field ++ " must be non-empty and at most " ++
      toString maxBytes ++ " UTF-8 bytes"))
  else
    .ok ()

def assertTimestamp (value : Int) (field : String) :
    Except PostDeliveryError Unit :=
  if isSafeInteger value = false ∨ value < 0 then
    .error (.eventInvalid (field ++ " must be a non-negative safe integer"))
  else
    .ok ()

def isDigest (text : String) : Bool :=
  text.length == 64 && text.toList.all fun character =>
    ('0' ≤ character && character ≤ '9') ||
      ('a' ≤ character && character ≤ 'f')

def normalizeIdentity (host : MaterializerHost)
    (identity : PluginExecutableIdentity) : PluginExecutableIdentity × Bool :=
  let pluginValid := !identity.pluginId.isEmpty &&
    decide (byteLength identity.pluginId ≤ MAX_PLUGIN_ID_BYTES)
  let versionValid := !identity.version.isEmpty &&
    decide (byteLength identity.version ≤ MAX_VERSION_BYTES)
  let digestValid := isDigest identity.digest
  if pluginValid && versionValid && digestValid then
    (identity, true)
  else
    let rawIdentity := printedObject
      [("digest", quote identity.digest),
        ("pluginId", quote identity.pluginId),
        ("version", quote identity.version)]
    let fallbackDigest := host.sha256Hex rawIdentity
    ({ pluginId :=
         if pluginValid then identity.pluginId
         else "invalid-candidate." ++
           String.ofList (fallbackDigest.toList.take 32)
       version := if versionValid then identity.version else "0.0.0-invalid"
       digest := if digestValid then identity.digest else fallbackDigest },
      false)

def normalizePermissions (permissions : List String) :
    Option (List String) :=
  if permissions.length > MAX_PERMISSIONS then
    none
  else if permissions.any fun permission =>
      permission.isEmpty ||
        decide (byteLength permission > MAX_PERMISSION_BYTES) then
    none
  else
    some (permissions.eraseDups.mergeSort unitsLe)

/-- The delivery id and the deduplication key. -/
def makeStableIdentity (host : MaterializerHost)
    (event : PostDeliveryEventSnapshot) (hook : PostHookName)
    (executable : PluginExecutableIdentity) : String × String :=
  let identityJson := canonicalJson (.object
    [("digest", .string executable.digest),
      ("hook", .string hook.text),
      ("occurrenceId", .string event.occurrenceId),
      ("pluginId", .string executable.pluginId),
      ("version", .string executable.version)])
  let digest := host.sha256Hex identityJson
  ("post:v1:" ++ digest, digest)

def memberOf (members : List (String × JsonValue)) (name : String) :
    Option JsonValue :=
  (members.find? (·.1 == name)).map Prod.snd

def expectedFields : PostHookName → List String
  | .afterComplete => ["task", "filePath"]
  | .onError => ["task", "filePath", "error"]

def permissionsJson (permissions : Option (List String)) : JsonValue :=
  .array ((permissions.getD []).map .string)

def materializeCandidate (host : MaterializerHost)
    (event : PostDeliveryEventSnapshot)
    (candidate : PostDeliveryCandidateSnapshot) (createdAt : Int) :
    Except PostDeliveryError PostDeliveryAdmission :=
  let (executable, identityValid) :=
    normalizeIdentity host candidate.executable
  let hook : PostHookName :=
    if candidate.hook = "onError" then .onError else .afterComplete
  let hookValid := candidate.hook == "afterComplete" ||
    candidate.hook == "onError"
  let (deliveryId, deduplicationKey) :=
    makeStableIdentity host event hook executable
  let requiredPermissions :=
    normalizePermissions candidate.requiredPermissions
  let createdEffectivePermissions :=
    normalizePermissions candidate.createdEffectivePermissions
  let generationValid := isSafeInteger candidate.createdGeneration &&
    decide (0 ≤ candidate.createdGeneration)
  let permissionsValid := requiredPermissions.isSome &&
    createdEffectivePermissions.isSome &&
    (requiredPermissions.getD []).all fun permission =>
      (createdEffectivePermissions.getD []).contains permission
  let valid := identityValid && hookValid && generationValid &&
    permissionsValid
  match event.payload with
  | .object payloadFields =>
      let expected := expectedFields hook
      let payloadShapeValid :=
        (payloadFields.all fun member => expected.contains member.1) &&
          expected.all fun name => (memberOf payloadFields name).isSome
      let delivery : JsonValue := .object
        [("id", .string deliveryId),
          ("occurrenceId", .string event.occurrenceId),
          ("occurredAt", .number (toString event.occurredAt)),
          ("schemaVersion", .number "1")]
      let stableFields : List (String × JsonValue) :=
        [("schemaVersion", .number "1"),
          ("taskId", .string event.taskId),
          ("task", (memberOf payloadFields "task").getD .null),
          ("filePath", (memberOf payloadFields "filePath").getD .null)] ++
        (if hook = .onError then
          [("error", (memberOf payloadFields "error").getD .null)]
        else []) ++
        [("delivery", delivery)]
      let stablePayload : JsonValue := .object stableFields
      let boundedJson := host.hookJsonValueAccepts stablePayload
      let dtoValid := payloadShapeValid && boundedJson &&
        host.contextAccepts hook (.object (stableFields ++
          [("invocationId", .string "materialization-validation")]))
      let canonicalPayload := canonicalJson
        (if boundedJson then stablePayload
        else .object
          [("delivery", delivery),
            ("invalidPayload", .boolean true),
            ("schemaVersion", .number "1"),
            ("taskId", .string event.taskId)])
      let payloadBytes := byteLength canonicalPayload
      let permissionSnapshotBytes :=
        byteLength (canonicalJson (permissionsJson requiredPermissions)) +
          byteLength
            (canonicalJson (permissionsJson createdEffectivePermissions))
      let payloadSizeValid := decide (payloadBytes ≤ MESSAGE_BYTES)
      let accepted := valid && dtoValid && payloadSizeValid
      .ok
        { deliveryId := deliveryId
          deduplicationKey := deduplicationKey
          hook := hook
          executable := executable
          createdGeneration :=
            if generationValid then candidate.createdGeneration else 0
          requiredPermissions := requiredPermissions.getD []
          createdEffectivePermissions :=
            createdEffectivePermissions.getD []
          occurrenceId := event.occurrenceId
          taskId := event.taskId
          occurredAt := event.occurredAt
          canonicalPayload := canonicalPayload
          payloadBytes := payloadBytes
          permissionSnapshotBytes := permissionSnapshotBytes
          reservedBytes := payloadBytes + permissionSnapshotBytes +
            POST_DELIVERY_ROW_CHARGE_BYTES
          createdAt := createdAt
          initialStatus := if accepted then .pending else .deadLetter
          initialReason := if accepted then none else some .inputInvalid }
  | _ => .error (.eventInvalid "post-delivery payload must be an object")

def materializePostDeliveries (host : MaterializerHost)
    (input : PostDeliveryMaterializationInput) :
    Except PostDeliveryError (List PostDeliveryAdmission) := do
  requireBoundedText input.event.occurrenceId "occurrenceId"
    MAX_OPAQUE_ID_BYTES
  requireBoundedText input.event.taskId "taskId" MAX_OPAQUE_ID_BYTES
  assertTimestamp input.event.occurredAt "occurredAt"
  assertTimestamp input.createdAt "createdAt"
  if input.event.schemaVersion ≠ 1 then
    throw (.eventInvalid "unsupported post-delivery event schemaVersion")
  input.candidates.mapM fun candidate =>
    materializeCandidate host input.event candidate input.createdAt

/-! ## Reserved bytes -/

/-- What `insertAdmission` recomputes of a row agrees with its reservation. -/
def Reserved (admission : PostDeliveryAdmission) : Prop :=
  byteLength (stringifyStrings admission.createdEffectivePermissions ++
      stringifyStrings admission.requiredPermissions) =
    admission.permissionSnapshotBytes ∧
  admission.payloadBytes + admission.permissionSnapshotBytes +
    POST_DELIVERY_ROW_CHARGE_BYTES = admission.reservedBytes

theorem materializeCandidate_reserved {host : MaterializerHost}
    {event : PostDeliveryEventSnapshot}
    {candidate : PostDeliveryCandidateSnapshot} {createdAt : Int}
    {admission : PostDeliveryAdmission}
    (built : materializeCandidate host event candidate createdAt =
      .ok admission) : Reserved admission := by
  unfold materializeCandidate at built
  dsimp only at built
  split at built
  · cases built
    constructor
    · rw [byteLength_append]
      unfold permissionsJson
      rw [canonicalJson_strings, canonicalJson_strings, Nat.add_comm]
    · rfl
  · cases built

theorem materialize_reserved {host : MaterializerHost}
    {input : PostDeliveryMaterializationInput}
    {admissions : List PostDeliveryAdmission}
    (built : materializePostDeliveries host input = .ok admissions)
    {admission : PostDeliveryAdmission} (inside : admission ∈ admissions) :
    Reserved admission := by
  unfold materializePostDeliveries at built
  rw [bind_eq_ok] at built
  obtain ⟨_, _, built⟩ := built
  rw [bind_eq_ok] at built
  obtain ⟨_, _, built⟩ := built
  rw [bind_eq_ok] at built
  obtain ⟨_, _, built⟩ := built
  rw [bind_eq_ok] at built
  obtain ⟨_, _, built⟩ := built
  dsimp only at built
  rw [throw_bind, guard_eq_ok] at built
  obtain ⟨candidate, _, made⟩ := mem_of_mapM built.2 inside
  exact materializeCandidate_reserved made

end Motrix.PostDelivery

/-!
# The repository of post-deliveries

The tables of deliveries, quotas and breakers.  Every operation is one
transaction; the bytes of a row change when it reaches its end, and receipts
over quota are folded into tombstone buckets on the way.
-/

namespace Motrix.PostDelivery

open Motrix.Lib

/-! ## Tables -/

structure RawDeliveryRow where
  deliveryId : String
  deduplicationKey : String
  occurrenceId : String
  hook : PostHookName
  taskId : String
  occurredAt : Int
  pluginId : String
  pluginVersion : String
  executableDigest : String
  createdGeneration : Int
  effectivePermissions : List String
  requiredPermissions : List String
  payloadJson : String
  payloadBytes : Nat
  reservedBytes : Nat
  compact : Bool
  status : PostDeliveryStatus
  attemptCount : Nat
  nextAttemptAt : Int
  leaseOwner : Option String
  leaseExpiresAt : Option Int
  permanentReason : Option PostDeliveryPermanentReason
  createdAt : Int
  updatedAt : Int
  deriving DecidableEq

namespace RawDeliveryRow

def isTerminal (row : RawDeliveryRow) : Bool :=
  isTerminalStatus row.status

def isActive (row : RawDeliveryRow) : Bool :=
  row.status == .pending || row.status == .delivering

end RawDeliveryRow

@[ext]
structure LedgerRow where
  activeRows : Int
  activeBytes : Int
  terminalRows : Int
  terminalBytes : Int
  deriving DecidableEq

namespace LedgerRow

instance : Zero LedgerRow where
  zero := ⟨0, 0, 0, 0⟩

instance : Add LedgerRow where
  add left right :=
    { activeRows := left.activeRows + right.activeRows
      activeBytes := left.activeBytes + right.activeBytes
      terminalRows := left.terminalRows + right.terminalRows
      terminalBytes := left.terminalBytes + right.terminalBytes }

instance : Neg LedgerRow where
  neg row :=
    { activeRows := -row.activeRows
      activeBytes := -row.activeBytes
      terminalRows := -row.terminalRows
      terminalBytes := -row.terminalBytes }

@[simp] theorem activeRows_zero : (0 : LedgerRow).activeRows = 0 := rfl

@[simp] theorem activeBytes_zero : (0 : LedgerRow).activeBytes = 0 := rfl

@[simp] theorem terminalRows_zero : (0 : LedgerRow).terminalRows = 0 := rfl

@[simp] theorem terminalBytes_zero : (0 : LedgerRow).terminalBytes = 0 := rfl

@[simp] theorem activeRows_add (left right : LedgerRow) :
    (left + right).activeRows = left.activeRows + right.activeRows := rfl

@[simp] theorem activeBytes_add (left right : LedgerRow) :
    (left + right).activeBytes = left.activeBytes + right.activeBytes := rfl

@[simp] theorem terminalRows_add (left right : LedgerRow) :
    (left + right).terminalRows = left.terminalRows + right.terminalRows := rfl

@[simp] theorem terminalBytes_add (left right : LedgerRow) :
    (left + right).terminalBytes = left.terminalBytes + right.terminalBytes :=
  rfl

@[simp] theorem activeRows_neg (row : LedgerRow) :
    (-row).activeRows = -row.activeRows := rfl

@[simp] theorem activeBytes_neg (row : LedgerRow) :
    (-row).activeBytes = -row.activeBytes := rfl

@[simp] theorem terminalRows_neg (row : LedgerRow) :
    (-row).terminalRows = -row.terminalRows := rfl

@[simp] theorem terminalBytes_neg (row : LedgerRow) :
    (-row).terminalBytes = -row.terminalBytes := rfl

instance : AddCommGroup LedgerRow where
  add_assoc left middle right := by
    ext
    all_goals exact add_assoc _ _ _
  zero_add row := by
    ext
    all_goals exact zero_add _
  add_zero row := by
    ext
    all_goals exact add_zero _
  neg_add_cancel row := by
    ext
    all_goals exact neg_add_cancel _
  add_comm left right := by
    ext
    all_goals exact add_comm _ _
  nsmul := nsmulRec
  zsmul := zsmulRec

end LedgerRow

structure QuotaBucket where
  bucketKey : String
  pluginId : String
  hook : String
  reason : String
  bucketDay : Int
  rejectedCount : Nat
  firstOccurrenceId : String
  lastOccurrenceId : String
  firstAt : Int
  lastAt : Int
  deriving DecidableEq

inductive BreakerMode where
  | closed
  | opened
  | halfOpen
  deriving DecidableEq

structure RawBreakerRow where
  state : BreakerMode
  failureCount : Nat
  windowStartedAt : Option Int
  openUntil : Option Int
  probeToken : Option String
  probeLeaseExpiresAt : Option Int
  updatedAt : Int
  deriving DecidableEq

structure PostDatabase where
  deliveries : List RawDeliveryRow := []
  ledgerRows : String → Option LedgerRow := fun _ => none
  buckets : List QuotaBucket := []
  breakers : String → Option RawBreakerRow := fun _ => none

structure PostDeliveryDatabaseCapacity where
  databaseCapacityBytes : Int
  coreLogicalBytes : Int

/-- The first item in an order, the earlier one of two that tie. -/
def firstBy {Item : Type} (before : Item → Item → Bool) :
    List Item → Option Item
  | [] => none
  | first :: rest =>
      some (rest.foldl
        (fun best next => if before next best then next else best) first)

theorem firstBy_mem {Item : Type} {before : Item → Item → Bool}
    {items : List Item} {found : Item}
    (chosen : firstBy before items = some found) : found ∈ items := by
  cases items with
  | nil => cases chosen
  | cons first rest =>
      cases chosen
      induction rest generalizing first with
      | nil => exact List.mem_cons_self
      | cons next later induction =>
          have inside := induction (if before next first then next else first)
          rcases List.mem_cons.mp inside with same | among
          · rw [List.foldl_cons, same]
            split
            · exact List.mem_cons_of_mem _ List.mem_cons_self
            · exact List.mem_cons_self
          · exact List.mem_cons_of_mem _ (List.mem_cons_of_mem _ among)

theorem firstBy_none {Item : Type} {before : Item → Item → Bool}
    {items : List Item} (missing : firstBy before items = none) :
    items = [] := by
  cases items with
  | nil => rfl
  | cons first rest => cases missing

def oldestFirst (time : RawDeliveryRow → Int) (left right : RawDeliveryRow) :
    Bool :=
  time left < time right ||
    (time left == time right && left.deliveryId < right.deliveryId)

/-! ## The ledger -/

def GLOBAL_SCOPE : String := "global"

def pluginScope (pluginId : String) : String :=
  "plugin:" ++ pluginId

namespace PostDatabase

def ledger (db : PostDatabase) (scope : String) : LedgerRow :=
  (db.ledgerRows scope).getD 0

def bumpScope (db : PostDatabase) (scope : String) (delta : LedgerRow) :
    PostDatabase :=
  { db with
    ledgerRows := fun other =>
      if other = scope then some (db.ledger scope + delta)
      else db.ledgerRows other }

def bumpLedger (db : PostDatabase) (pluginId : String) (delta : LedgerRow) :
    PostDatabase :=
  (db.bumpScope GLOBAL_SCOPE delta).bumpScope (pluginScope pluginId) delta

def moveActiveToTerminal (db : PostDatabase) (pluginId : String)
    (activeBytes terminalBytes : Nat) : PostDatabase :=
  db.bumpLedger pluginId
    { activeRows := -1
      activeBytes := -(activeBytes : Int)
      terminalRows := 1
      terminalBytes := terminalBytes }

end PostDatabase

/-! ## Tombstone buckets -/

def POST_DELIVERY_DAILY_BUCKETS_PER_REASON : Nat := 32
def POST_DELIVERY_GLOBAL_TOMBSTONE_BUCKETS : Nat := 8192

/-- `createHash('sha256')` in hexadecimal. -/
structure RepositoryHost where
  sha256Hex : String → String

def tombstoneKey (host : RepositoryHost) (pluginId hook reason : String)
    (day : Int) : String :=
  let raw := pluginId ++ ":" ++ hook ++ ":" ++ reason ++ ":" ++ toString day
  if byteLength raw ≤ 512 then raw else "hashed:" ++ host.sha256Hex raw

def QuotaBucket.merge (old incoming : QuotaBucket) : QuotaBucket :=
  { old with
    rejectedCount := old.rejectedCount + incoming.rejectedCount
    firstOccurrenceId :=
      if incoming.firstAt < old.firstAt then incoming.firstOccurrenceId
      else old.firstOccurrenceId
    lastOccurrenceId :=
      if incoming.lastAt ≥ old.lastAt then incoming.lastOccurrenceId
      else old.lastOccurrenceId
    firstAt := min old.firstAt incoming.firstAt
    lastAt := max old.lastAt incoming.lastAt }

/-- Insertion that merges with the bucket of the same key. -/
def upsertBucket (buckets : List QuotaBucket) (incoming : QuotaBucket) :
    List QuotaBucket :=
  if buckets.any (·.bucketKey == incoming.bucketKey) then
    Table.rewrite (·.bucketKey == incoming.bucketKey) (·.merge incoming)
      buckets
  else
    buckets ++ [incoming]

def mergeRollup (host : RepositoryHost) (buckets : List QuotaBucket)
    (pluginId reason : String) (row : QuotaBucket) : List QuotaBucket :=
  upsertBucket buckets
    { bucketKey := tombstoneKey host pluginId "all" reason (-1)
      pluginId := pluginId
      hook := "all"
      reason := reason
      bucketDay := -1
      rejectedCount := row.rejectedCount
      firstOccurrenceId := row.firstOccurrenceId
      lastOccurrenceId := row.lastOccurrenceId
      firstAt := row.firstAt
      lastAt := row.lastAt }

def foldDailyTombstones (host : RepositoryHost) (buckets : List QuotaBucket)
    (pluginId reason : String) : List QuotaBucket :=
  let daily := (buckets.filter fun bucket =>
    bucket.pluginId == pluginId && bucket.reason == reason &&
      decide (0 ≤ bucket.bucketDay)).mergeSort fun left right =>
        left.bucketDay < right.bucketDay ||
          (left.bucketDay == right.bucketDay &&
            left.bucketKey ≤ right.bucketKey)
  let folded := daily.take
    (daily.length + 1 - POST_DELIVERY_DAILY_BUCKETS_PER_REASON)
  folded.foldl (fun rest oldest =>
    Table.remove QuotaBucket.bucketKey oldest.bucketKey
      (mergeRollup host rest pluginId reason oldest)) buckets

def overflowKey (host : RepositoryHost) : String :=
  tombstoneKey host "__global__" "all" "bucket_overflow" (-1)

/-- Whether the new rejection must fold into the global rollup.  Every turn
removes a bucket other than the overflow one, so that as many turns as there
are buckets suffice. -/
def ensureTombstoneCapacity (host : RepositoryHost) :
    Nat → List QuotaBucket → Bool × List QuotaBucket
  | 0, buckets => (true, buckets)
  | turns + 1, buckets =>
      if buckets.length < POST_DELIVERY_GLOBAL_TOMBSTONE_BUCKETS then
        (false, buckets)
      else
        let others := buckets.filter fun bucket =>
          bucket.bucketKey != overflowKey host
        match firstBy (fun left right => left.lastAt < right.lastAt ||
            (left.lastAt == right.lastAt &&
              left.bucketKey < right.bucketKey)) others with
        | none => (true, buckets)
        | some oldest =>
            ensureTombstoneCapacity host turns
              (Table.remove QuotaBucket.bucketKey oldest.bucketKey
                (mergeRollup host buckets "__global__" "bucket_overflow"
                  oldest))

/-- The key of the bucket the rejection is counted in, and the buckets. -/
def recordTombstone (host : RepositoryHost) (buckets : List QuotaBucket)
    (pluginId : String) (hook : PostHookName) (occurrenceId : String)
    (createdAt : Int) (reason : String) : String × List QuotaBucket :=
  let day := createdAt / 86400000
  let ordinaryKey := tombstoneKey host pluginId hook.text reason day
  let alreadyExists := buckets.any (·.bucketKey == ordinaryKey)
  let folded :=
    if alreadyExists then buckets
    else foldDailyTombstones host buckets pluginId reason
  let (overflow, room) :=
    if alreadyExists then (false, folded)
    else ensureTombstoneCapacity host (folded.length + 1) folded
  let key := if overflow then overflowKey host else ordinaryKey
  (key, upsertBucket room
    { bucketKey := key
      pluginId := if overflow then "__global__" else pluginId
      hook := if overflow then "all" else hook.text
      reason := if overflow then "bucket_overflow" else reason
      bucketDay := if overflow then -1 else day
      rejectedCount := 1
      firstOccurrenceId := occurrenceId
      lastOccurrenceId := occurrenceId
      firstAt := createdAt
      lastAt := createdAt })

def tombstoneBytes : List QuotaBucket → Nat
  | [] => 0
  | bucket :: rest =>
      byteLength bucket.bucketKey + byteLength bucket.pluginId +
        byteLength bucket.hook + byteLength bucket.reason +
        byteLength bucket.firstOccurrenceId +
        byteLength bucket.lastOccurrenceId + 128 + tombstoneBytes rest

namespace PostDatabase

/-! ## Terminal quotas -/

def pruneTerminalRow (host : RepositoryHost) (db : PostDatabase)
    (row : RawDeliveryRow) (reason : String) (now : Int) : PostDatabase :=
  let (_, buckets) := recordTombstone host db.buckets row.pluginId row.hook
    row.occurrenceId now reason
  { db with
    buckets := buckets
    deliveries :=
      Table.remove RawDeliveryRow.deliveryId row.deliveryId db.deliveries }
  |>.bumpLedger row.pluginId
    { activeRows := 0
      activeBytes := 0
      terminalRows := -1
      terminalBytes := -(row.reservedBytes : Int) }

/-- The terminal row that goes first, of any plugin or of one. -/
def oldestTerminal (db : PostDatabase) (anyPlugin : Bool)
    (pluginId : String) : Option RawDeliveryRow :=
  firstBy (oldestFirst (·.updatedAt)) (db.deliveries.filter fun row =>
    row.isTerminal && (anyPlugin || row.pluginId == pluginId))

def globalOver (quota : PostDeliveryQuotaConfig) (db : PostDatabase)
    (rows bytes : Int) : Bool :=
  (db.ledger GLOBAL_SCOPE).terminalRows + rows > quota.globalTerminalRows ||
    (db.ledger GLOBAL_SCOPE).terminalBytes + bytes > quota.globalTerminalBytes

def pluginOver (quota : PostDeliveryQuotaConfig) (db : PostDatabase)
    (pluginId : String) (rows bytes : Int) : Bool :=
  (db.ledger (pluginScope pluginId)).terminalRows + rows >
      quota.pluginTerminalRows ||
    (db.ledger (pluginScope pluginId)).terminalBytes + bytes >
      quota.pluginTerminalBytes

/-- Every turn prunes one row. -/
def enforceTurns (host : RepositoryHost) (quota : PostDeliveryQuotaConfig)
    (now : Int) (pluginId : String) : Nat → PostDatabase → PostDatabase
  | 0, db => db
  | turns + 1, db =>
      if db.globalOver quota 0 0 = false ∧
          db.pluginOver quota pluginId 0 0 = false then
        db
      else
        match db.oldestTerminal (db.globalOver quota 0 0) pluginId with
        | none => db
        | some row =>
            enforceTurns host quota now pluginId turns
              (db.pruneTerminalRow host row "terminal_quota_compacted" now)

def enforceTerminalQuotas (host : RepositoryHost)
    (quota : PostDeliveryQuotaConfig) (db : PostDatabase) (now : Int)
    (pluginId : String) : PostDatabase :=
  enforceTurns host quota now pluginId db.deliveries.length db

def ensureTurns (host : RepositoryHost) (quota : PostDeliveryQuotaConfig)
    (now : Int) (pluginId : String) (incomingBytes : Nat) :
    Nat → PostDatabase → Except PostDeliveryError PostDatabase
  | 0, db =>
      if db.globalOver quota 1 incomingBytes = false ∧
          db.pluginOver quota pluginId 1 incomingBytes = false then
        .ok db
      else
        .error .terminalCannotFit
  | turns + 1, db =>
      if db.globalOver quota 1 incomingBytes = false ∧
          db.pluginOver quota pluginId 1 incomingBytes = false then
        .ok db
      else
        match db.oldestTerminal (db.globalOver quota 1 incomingBytes)
            pluginId with
        | none => .error .terminalCannotFit
        | some row =>
            ensureTurns host quota now pluginId incomingBytes turns
              (db.pruneTerminalRow host row "terminal_quota_compacted" now)

def ensureTerminalCapacity (host : RepositoryHost)
    (quota : PostDeliveryQuotaConfig) (db : PostDatabase) (pluginId : String)
    (incomingBytes : Nat) (now : Int) :
    Except PostDeliveryError PostDatabase :=
  ensureTurns host quota now pluginId incomingBytes db.deliveries.length db

/-! ## Terminal rows -/

/-- `UPDATE`, with the number of rows changed. -/
def updateDeliveries (db : PostDatabase) (chosen : RawDeliveryRow → Bool)
    (change : RawDeliveryRow → RawDeliveryRow) : Nat × PostDatabase :=
  ((db.deliveries.filter chosen).length,
    { db with deliveries := Table.rewrite chosen change db.deliveries })

def terminalStatusOf : PostDeliveryPermanentReason → PostDeliveryStatus
  | .superseded => .superseded
  | _ => .deadLetter

/-- What is left of a row with its receipt. -/
def endedRow (status : PostDeliveryStatus) (receipt : String)
    (reason : Option PostDeliveryPermanentReason) (now : Int)
    (row : RawDeliveryRow) : RawDeliveryRow :=
  { row with
    status := status
    payloadJson := receipt
    payloadBytes := byteLength receipt
    reservedBytes := receiptCharge receipt
    compact := true
    effectivePermissions := []
    requiredPermissions := []
    leaseOwner := none
    leaseExpiresAt := none
    permanentReason := reason
    updatedAt := now }

def terminalizeRow (host : RepositoryHost) (quota : PostDeliveryQuotaConfig)
    (db : PostDatabase) (row : RawDeliveryRow)
    (reason : PostDeliveryPermanentReason) (now : Int)
    (terminalStatus : PostDeliveryStatus) :
    Except PostDeliveryError PostDatabase := do
  let receipt ← compactTerminalReceipt
    { deliveryId := row.deliveryId
      pluginId := row.pluginId
      hook := row.hook
      status := terminalStatus
      completedAt := now
      attemptCount := row.attemptCount
      reason := some reason }
  let terminalBytes := receiptCharge receipt
  let room ← db.ensureTerminalCapacity host quota row.pluginId terminalBytes
    now
  let (changed, updated) := room.updateDeliveries
    (fun other => other.deliveryId == row.deliveryId && other.isActive)
    (endedRow terminalStatus receipt (some reason) now)
  if changed = 1 then
    return updated.moveActiveToTerminal row.pluginId row.reservedBytes
      terminalBytes
  else
    return updated

/-! ## Admission -/

def deliveryExists (db : PostDatabase) (deliveryId deduplicationKey : String) :
    Bool :=
  db.deliveries.any fun row => row.deliveryId == deliveryId ||
    row.deduplicationKey == deduplicationKey

def initialTerminalReceipt (admission : PostDeliveryAdmission) :
    Except PostDeliveryError String :=
  compactTerminalReceipt
    { deliveryId := admission.deliveryId
      pluginId := admission.executable.pluginId
      hook := admission.hook
      status := .deadLetter
      completedAt := admission.createdAt
      attemptCount := 0
      reason := some (admission.initialReason.getD .inputInvalid) }

def capacityValid (capacity : PostDeliveryDatabaseCapacity) : Bool :=
  isSafeInteger capacity.databaseCapacityBytes &&
    isSafeInteger capacity.coreLogicalBytes &&
    decide (0 ≤ capacity.databaseCapacityBytes) &&
    decide (0 ≤ capacity.coreLogicalBytes)

def incomingBytesOf (admission : PostDeliveryAdmission) :
    Except PostDeliveryError Nat :=
  match admission.initialStatus with
  | .deadLetter => (initialTerminalReceipt admission).map receiptCharge
  | .pending => .ok admission.reservedBytes

def rejectionOf (quota : PostDeliveryQuotaConfig) (db : PostDatabase)
    (capacity : PostDeliveryDatabaseCapacity)
    (admission : PostDeliveryAdmission) (incomingBytes : Nat) :
    Except PostDeliveryError (Option PostDeliveryAdmissionReason) :=
  let isPending := admission.initialStatus = .pending
  let plugin := db.ledger (pluginScope admission.executable.pluginId)
  let global := db.ledger GLOBAL_SCOPE
  if isPending ∧ plugin.activeRows + 1 > quota.pluginActiveRows then
    .ok (some .pluginActiveRows)
  else if isPending ∧
      plugin.activeBytes + incomingBytes > quota.pluginActiveBytes then
    .ok (some .pluginActiveBytes)
  else if isPending ∧ global.activeRows + 1 > quota.globalActiveRows then
    .ok (some .globalActiveRows)
  else if isPending ∧
      global.activeBytes + incomingBytes > quota.globalActiveBytes then
    .ok (some .globalActiveBytes)
  else if global.activeBytes + global.terminalBytes + incomingBytes >
      POST_DELIVERY_HARD_BUDGET_BYTES then
    .ok (some .postHardBudget)
  else if capacityValid capacity = false then
    .error .capacityInvalid
  else
    let postLogicalBytes := global.activeBytes + global.terminalBytes +
      tombstoneBytes db.buckets
    let bytesAvailableToPost := max 0 (capacity.databaseCapacityBytes -
      capacity.coreLogicalBytes - POST_DELIVERY_CORE_RESERVE_BYTES)
    if postLogicalBytes + incomingBytes > bytesAvailableToPost ∨
        postLogicalBytes + incomingBytes >
          POST_DELIVERY_HARD_BUDGET_BYTES then
      .ok (some .postHardBudget)
    else
      .ok none

def admissionRejection (quota : PostDeliveryQuotaConfig) (db : PostDatabase)
    (capacity : PostDeliveryDatabaseCapacity)
    (admission : PostDeliveryAdmission) :
    Except PostDeliveryError (Option PostDeliveryAdmissionReason) := do
  let incomingBytes ← incomingBytesOf admission
  db.rejectionOf quota capacity admission incomingBytes

def admittedRow (admission : PostDeliveryAdmission) (payload : String)
    (payloadBytes bytes : Nat) (effective required : List String) :
    RawDeliveryRow where
  deliveryId := admission.deliveryId
  deduplicationKey := admission.deduplicationKey
  occurrenceId := admission.occurrenceId
  hook := admission.hook
  taskId := admission.taskId
  occurredAt := admission.occurredAt
  pluginId := admission.executable.pluginId
  pluginVersion := admission.executable.version
  executableDigest := admission.executable.digest
  createdGeneration := admission.createdGeneration
  effectivePermissions := effective
  requiredPermissions := required
  payloadJson := payload
  payloadBytes := payloadBytes
  reservedBytes := bytes
  compact := admission.initialStatus == .deadLetter
  status :=
    match admission.initialStatus with
    | .pending => .pending
    | .deadLetter => .deadLetter
  attemptCount := 0
  nextAttemptAt := admission.createdAt
  leaseOwner := none
  leaseExpiresAt := none
  permanentReason := admission.initialReason
  createdAt := admission.createdAt
  updatedAt := admission.createdAt

def insertPending (db : PostDatabase) (admission : PostDeliveryAdmission)
    (bytes : Nat) : PostDatabase :=
  let row := admittedRow admission admission.canonicalPayload
    admission.payloadBytes bytes admission.createdEffectivePermissions
    admission.requiredPermissions
  { db with deliveries := db.deliveries ++ [row] }.bumpLedger row.pluginId
    { activeRows := 1
      activeBytes := bytes
      terminalRows := 0
      terminalBytes := 0 }

def insertDeadLetter (host : RepositoryHost)
    (quota : PostDeliveryQuotaConfig) (db : PostDatabase)
    (admission : PostDeliveryAdmission) :
    Except PostDeliveryError PostDatabase := do
  let payload ← initialTerminalReceipt admission
  let bytes := byteLength payload +
    byteLength (stringifyStrings [] ++ stringifyStrings []) +
    POST_DELIVERY_ROW_CHARGE_BYTES
  let room ← db.ensureTerminalCapacity host quota
    admission.executable.pluginId bytes admission.createdAt
  let row := admittedRow admission payload (byteLength payload) bytes [] []
  let inserted :=
    { room with deliveries := room.deliveries ++ [row] }.bumpLedger
      row.pluginId
      { activeRows := 0
        activeBytes := 0
        terminalRows := 1
        terminalBytes := bytes }
  return inserted.enforceTerminalQuotas host quota admission.createdAt
    row.pluginId

def insertAdmission (host : RepositoryHost) (quota : PostDeliveryQuotaConfig)
    (db : PostDatabase) (admission : PostDeliveryAdmission) :
    Except PostDeliveryError PostDatabase :=
  let permissionSnapshotBytes := byteLength
    (stringifyStrings admission.createdEffectivePermissions ++
      stringifyStrings admission.requiredPermissions)
  if permissionSnapshotBytes ≠ admission.permissionSnapshotBytes ∨
      admission.payloadBytes + permissionSnapshotBytes +
        POST_DELIVERY_ROW_CHARGE_BYTES ≠ admission.reservedBytes then
    .error .reservationMismatch
  else
    match admission.initialStatus with
    | .pending =>
        .ok (db.insertPending admission (admission.payloadBytes +
          permissionSnapshotBytes + POST_DELIVERY_ROW_CHARGE_BYTES))
    | .deadLetter => db.insertDeadLetter host quota admission

inductive AdmissionDecision where
  | admitted
  | duplicate
  | rejected (reason : PostDeliveryAdmissionReason) (tombstoneKey : String)

def admitOrTombstone (host : RepositoryHost)
    (quota : PostDeliveryQuotaConfig) (db : PostDatabase)
    (capacity : PostDeliveryDatabaseCapacity)
    (admission : PostDeliveryAdmission) :
    Except PostDeliveryError (AdmissionDecision × PostDatabase) :=
  if db.deliveryExists admission.deliveryId admission.deduplicationKey then
    .ok (.duplicate, db)
  else do
    match ← db.admissionRejection quota capacity admission with
    | some reason =>
        let (key, buckets) := recordTombstone host db.buckets
          admission.executable.pluginId admission.hook
          admission.occurrenceId admission.createdAt reason.text
        return (.rejected reason key, { db with buckets := buckets })
    | none =>
        let inserted ← db.insertAdmission host quota admission
        return (.admitted, inserted)

/-- The capacity is read anew for every admission. -/
def admitMany (host : RepositoryHost) (quota : PostDeliveryQuotaConfig)
    (db : PostDatabase)
    (admissions :
      List (PostDeliveryAdmission × PostDeliveryDatabaseCapacity)) :
    Except PostDeliveryError PostDatabase :=
  admissions.foldlM (fun now item => do
    let (_, next) ← now.admitOrTombstone host quota item.2 item.1
    return next) db

end PostDatabase

end Motrix.PostDelivery
