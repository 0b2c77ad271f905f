import Motrix.Bridge.ExtensionIdentity
import Motrix.Bridge.TicketVerify

/-!
# MBP1 frames

The schemas every inbound frame passes.  A binary field is base64url of a
fixed width; once read, it carries its bytes.
-/

namespace Motrix.Bridge

open Motrix.Lib

def mbp1ProtocolVersion : Nat := 1
def maxPreAuthFrameBytes : Nat := 16 * 1024
def pointBytes : Nat := 32
def macBytes : Nat := 32
def signatureBytes : Nat := 64
def keyBytes : Nat := 32
def nonceBytes : Nat := 32

/-! ## Fields -/

/-- A string accepted by `base64UrlBytes(byteLength)`. -/
structure Base64UrlField (byteLength : Nat) where
  text : String
  bytes : Bytes
  decoded : fromBase64Url text = .ok bytes
  width : bytes.length = byteLength
  deriving DecidableEq

def base64UrlText (byteLength : Nat) (text : String) :
    Option (Base64UrlField byteLength) :=
  match decoded : fromBase64Url text with
  | .error _ => none
  | .ok bytes =>
      if width : bytes.length = byteLength then
        some ⟨text, bytes, decoded, width⟩
      else none

def base64UrlBytesField (byteLength : Nat) (value : Json) :
    Option (Base64UrlField byteLength) :=
  value.asString.bind (base64UrlText byteLength)

def asciiString (value : Json) : Option String :=
  value.asString.filter isAscii

def literal (expected : String) (value : Json) : Option Unit :=
  if value.asString = some expected then some () else none

/-- `field.optional()`: an absent key is accepted, a present one must pass. -/
def optionalField {α : Type} (members : List (String × Json)) (key : String)
    (schema : Json → Option α) : Option (Option α) :=
  match members.lookup key with
  | none => some none
  | some value => (schema value).map some

def Browser.text : Browser → String
  | .chromium => "chromium"
  | .firefox => "firefox"
  | .safari => "safari"

def browserField (value : Json) : Option Browser :=
  [Browser.chromium, .firefox, .safari].find? fun browser =>
    value.asString = some browser.text

/-! ## Frames from the extension -/

/-- `frameEnvelopeSchema`, which tolerates further keys. -/
def frameEnvelopeSchema : Json → Option String
  | .object members => (Json.field members "type").asString
  | _ => none

structure PairHelloFrame where
  protocolVersion : Nat
  browser : Browser
  claimedExtensionId : String
  clientInstallationId : String
  safariInstallationKey : Option (Base64UrlField keyBytes)
  nmTicket : Option Json
  ticketBindingKey : Option (Base64UrlField keyBytes)

def pairHelloFrameSchema (body : Json) : Option PairHelloFrame := do
  let members ← body.strictObject
    ["type", "protocolVersion", "browser", "claimedExtensionId",
      "clientInstallationId", "safariInstallationKey", "nmTicket",
      "ticketBindingKey"]
  literal "pairHello" (Json.field members "type")
  let protocolVersion ←
    (Json.field members "protocolVersion").asNatural 0xffffffff
  let browser ← browserField (Json.field members "browser")
  let claimedExtensionId ←
    asciiString (Json.field members "claimedExtensionId")
  let clientInstallationId ←
    asciiString (Json.field members "clientInstallationId")
  let safariInstallationKey ←
    optionalField members "safariInstallationKey" (base64UrlBytesField keyBytes)
  let ticketBindingKey ←
    optionalField members "ticketBindingKey" (base64UrlBytesField keyBytes)
  let nmTicket := members.lookup "nmTicket"
  if nmTicket.isNone = ticketBindingKey.isNone ∧
      (safariInstallationKey.isNone ∨ browser = .safari) then
    return {
      protocolVersion := protocolVersion
      browser := browser
      claimedExtensionId := claimedExtensionId
      clientInstallationId := clientInstallationId
      safariInstallationKey := safariInstallationKey
      nmTicket := nmTicket
      ticketBindingKey := ticketBindingKey }
  else none

structure PakeAFrame where
  pA : Base64UrlField pointBytes
  deriving DecidableEq

def pakeAFrameSchema (body : Json) : Option PakeAFrame := do
  let members ← body.strictObject ["type", "pA"]
  literal "pakeA" (Json.field members "type")
  let pA ← base64UrlBytesField pointBytes (Json.field members "pA")
  return { pA := pA }

structure ConfirmAFrame where
  cA : Base64UrlField macBytes
  ticketProof : Option (Base64UrlField signatureBytes)
  deriving DecidableEq

def confirmAFrameSchema (body : Json) : Option ConfirmAFrame := do
  let members ← body.strictObject ["type", "cA", "ticketProof"]
  literal "confirmA" (Json.field members "type")
  let cA ← base64UrlBytesField macBytes (Json.field members "cA")
  let ticketProof ←
    optionalField members "ticketProof" (base64UrlBytesField signatureBytes)
  return {
    cA := cA
    ticketProof := ticketProof }

/-- The credential id of a `credentialAck`. -/
def credentialAckFrameSchema (body : Json) : Option String := do
  let members ← body.strictObject ["type", "credentialId"]
  literal "credentialAck" (Json.field members "type")
  asciiString (Json.field members "credentialId")

structure SafariResume where
  installationKey : Base64UrlField keyBytes
  proof : Base64UrlField signatureBytes
  nmTicket : Option Json

def safariResumeSchema (value : Json) : Option SafariResume := do
  let members ← value.strictObject ["installationKey", "proof", "nmTicket"]
  let installationKey ←
    base64UrlBytesField keyBytes (Json.field members "installationKey")
  let proof ← base64UrlBytesField signatureBytes (Json.field members "proof")
  return {
    installationKey := installationKey
    proof := proof
    nmTicket := members.lookup "nmTicket" }

structure ReconnectResponseFrame where
  safariResume : Option SafariResume
  credentialId : String
  clientNonce : Base64UrlField nonceBytes
  mac : Base64UrlField macBytes

def reconnectResponseFrameSchema (body : Json) :
    Option ReconnectResponseFrame := do
  let members ← body.strictObject
    ["type", "safariResume", "credentialId", "C", "mac"]
  literal "reconnectResponse" (Json.field members "type")
  let safariResume ← optionalField members "safariResume" safariResumeSchema
  let credentialId ← asciiString (Json.field members "credentialId")
  let clientNonce ← base64UrlBytesField nonceBytes (Json.field members "C")
  let mac ← base64UrlBytesField macBytes (Json.field members "mac")
  return {
    safariResume := safariResume
    credentialId := credentialId
    clientNonce := clientNonce
    mac := mac }

/-- The reader of ticket fields that reach `ticketDigest`: the ticket schema
with its strings restricted to ASCII. -/
def nmTicketWireSchema (wire : Json) : Option TicketFields :=
  (ticketWireSchema wire).filter fun fields =>
    isAscii fields.purpose && isAscii fields.serverGeneration &&
      isAscii fields.browser && isAscii fields.callerId

/-! ## Frames to the extension -/

inductive PairErrorCode where
  | unsupportedVersion
  | busy
  | rateLimited
  | codeMismatch
  | expired
  | denied
  | aborted
  | authFailed
  | protocolViolation
  | pairingFailed
  deriving DecidableEq, Repr

/-- `credentialOfferFrameSchema` on a locally built frame. -/
def credentialOfferValid (credentialId mutualKey : String) : Bool :=
  isAscii credentialId && (base64UrlText keyBytes mutualKey).isSome

end Motrix.Bridge
