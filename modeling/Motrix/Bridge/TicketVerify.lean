import Mathlib.Data.Rat.Defs
import Motrix.Bridge.Canonical

/-!
# Untyped wire values

Frames arrive as values of type `unknown`; schemas read typed fields out of
them.  `nonJson` stands for everything a schema here never accepts: missing
values, non-finite numbers, functions.
-/

namespace Motrix.Bridge

inductive Json where
  | null
  | boolean (value : Bool)
  | number (value : Rat)
  | string (value : String)
  | array (items : List Json)
  | object (members : List (String × Json))
  | nonJson

namespace Json

/-- Own property lookup; an absent key reads as `undefined`. -/
def field (members : List (String × Json)) (key : String) : Json :=
  (members.lookup key).getD .nonJson

/-- `z.object({…}).strict()`: an object without keys outside `allowed`. -/
def strictObject (allowed : List String) :
    Json → Option (List (String × Json))
  | .object members =>
      if members.all fun member => allowed.contains member.1 then some members
      else none
  | _ => none

/-- `z.string()` -/
def asString : Json → Option String
  | .string value => some value
  | _ => none

/-- `z.number().int().min(0).max(maximum)` -/
def asNatural (maximum : Nat) : Json → Option Nat
  | .number value =>
      if value.den = 1 ∧ 0 ≤ value.num ∧ value.num ≤ (maximum : Int) then
        some value.num.toNat
      else none
  | _ => none

theorem asNatural_natCast {maximum value : Nat} (bound : value ≤ maximum) :
    (number (value : Rat)).asNatural maximum = some value := by
  simp [asNatural, bound]

end Json

end Motrix.Bridge

/-!
# Native-messaging attestation tickets

`verifyNmTicket` applies the rows of the ticket outcome table in their
normative order: the MAC first, then the remaining abort rows, then the two
downgrade rows.  The rows in front of the replay row do not touch the replay
cache and are kept in `rowsBeforeReplay`.
-/

namespace Motrix.Bridge

open Motrix.Lib

/-- What the verifier asks of a decoded Edwards point. -/
structure EdwardsPoint where
  is0 : Bool
  isSmallOrder : Bool
  isTorsionFree : Bool
  deriving DecidableEq, Repr

/-- The primitives taken from cryptographic packages.  `pointFromBytes` is
`none` where the RFC 8032 decoder throws. -/
structure TicketCrypto where
  hkdf32 : (ikm salt info : Bytes) → Bytes
  hmacSha256 : (key input : Bytes) → Bytes
  pointFromBytes : Bytes → Option EdwardsPoint

/-- `new TextEncoder().encode(s)` -/
def utf8ToBytes (s : String) : Bytes :=
  s.toUTF8.toList

def ticketVersion : Nat := 1
def ticketPurpose : String := "mbp1-attestation"
def ticketProtocolVersion : Nat := 1
def ticketKeySalt : Bytes := asciiBytes "MBP1/nm-ticket/v1"
def ticketKeyInfo : Bytes := asciiBytes "mac"
def pointLength : Nat := 32
def maxRemainingLifetimeMs : Int := 60000

/-- `floor(Number.MAX_SAFE_INTEGER / 1000)` -/
def maxExpSeconds : Nat := (2 ^ 53 - 1) / 1000

structure TicketWire where
  v : Nat
  purpose : String
  protocolVersion : Nat
  serverGeneration : String
  browser : String
  callerId : String
  exp : Nat
  bindingPub : Bytes
  mac : Bytes
  deriving DecidableEq, Repr

inductive TicketAbortReason where
  | schema
  | macMismatch
  | formatMismatch
  | bindingKeyInvalid
  | bindingKeyMismatch
  | callerIdMismatch
  | browserMismatch
  | replayed
  | expTooFar
  deriving DecidableEq, Repr

inductive TicketDowngradeReason where
  | unknownGeneration
  | expired
  deriving DecidableEq, Repr

structure DeferredTicketProof where
  bindingPub : Bytes
  deriving DecidableEq, Repr

inductive TicketVerdict where
  | abort (reason : TicketAbortReason)
  | downgrade (reason : TicketDowngradeReason)
      (deferredProof : DeferredTicketProof)
  | attested (callerId : String) (deferredProof : DeferredTicketProof)
  deriving DecidableEq, Repr

def TicketVerdict.isAttested : TicketVerdict → Bool
  | .attested _ _ => true
  | _ => false

/-- The clock is read as milliseconds; the shared replay cache is threaded
separately. -/
structure TicketContext where
  localToken : String
  serverGeneration : String
  nowMs : Int
  helloBrowser : String
  helloClaimedExtensionId : String
  helloTicketBindingKey : Option Bytes
  deriving DecidableEq, Repr

def deriveTicketKey (crypto : TicketCrypto) (localToken : String) : Bytes :=
  crypto.hkdf32 (utf8ToBytes localToken) ticketKeySalt ticketKeyInfo

def ticketMacInput (t : TicketWire) : Encoding := do
  let domainTag ← enc (.string ticketPurpose)
  let v ← encU32BE t.v
  let protocolVersion ← encU32BE t.protocolVersion
  let serverGeneration ← enc (.string t.serverGeneration)
  let browser ← enc (.string t.browser)
  let callerId ← enc (.string t.callerId)
  let exp ← encU64BE t.exp
  let bindingPub ← enc (.bytes t.bindingPub)
  return domainTag ++ (v ++ (protocolVersion ++ (serverGeneration ++
    (browser ++ (callerId ++ (exp ++ bindingPub))))))

def validateBindingPub (crypto : TicketCrypto) (bytes : Bytes) : Bool :=
  if bytes.length ≠ pointLength then false
  else
    match crypto.pointFromBytes bytes with
    | none => false
    | some point =>
        !point.is0 && !point.isSmallOrder && point.isTorsionFree

/-! ## The replay cache -/

/-- `Map<string, number>` from the base64url MAC to its retention time. -/
structure TicketReplayCache where
  seen : List (String × Int)
  deriving DecidableEq, Repr

namespace TicketReplayCache

def empty : TicketReplayCache := ⟨[]⟩

def has (cache : TicketReplayCache) (macB64 : String) : Bool :=
  cache.seen.any fun entry => entry.1 = macB64

def add (cache : TicketReplayCache) (macB64 : String) (expMs nowMs : Int) :
    TicketReplayCache :=
  ⟨(macB64, min expMs (nowMs + maxRemainingLifetimeMs)) ::
    cache.seen.filter fun entry => entry.1 ≠ macB64⟩

def prune (cache : TicketReplayCache) (nowMs : Int) : TicketReplayCache :=
  ⟨cache.seen.filter fun entry => ¬ entry.2 ≤ nowMs⟩

end TicketReplayCache

/-! ## Verification -/

def ticketWireKeys : List String :=
  ["v", "purpose", "protocolVersion", "serverGeneration", "browser",
    "callerId", "exp", "bindingPub", "mac"]

/-- The wire object before its binary fields are decoded. -/
structure TicketFields where
  v : Nat
  purpose : String
  protocolVersion : Nat
  serverGeneration : String
  browser : String
  callerId : String
  exp : Nat
  bindingPub : String
  mac : String

def ticketWireSchema (wire : Json) : Option TicketFields := do
  let members ← wire.strictObject ticketWireKeys
  let v ← (Json.field members "v").asNatural 0xffffffff
  let purpose ← (Json.field members "purpose").asString
  let protocolVersion ←
    (Json.field members "protocolVersion").asNatural 0xffffffff
  let serverGeneration ← (Json.field members "serverGeneration").asString
  let browser ← (Json.field members "browser").asString
  let callerId ← (Json.field members "callerId").asString
  let exp ← (Json.field members "exp").asNatural maxExpSeconds
  let bindingPub ← (Json.field members "bindingPub").asString
  let mac ← (Json.field members "mac").asString
  return {
    v := v
    purpose := purpose
    protocolVersion := protocolVersion
    serverGeneration := serverGeneration
    browser := browser
    callerId := callerId
    exp := exp
    bindingPub := bindingPub
    mac := mac }

def TicketFields.decode (data : TicketFields) :
    Except ProtocolViolationError TicketWire := do
  let bindingPub ← fromBase64Url data.bindingPub
  let mac ← fromBase64Url data.mac
  return {
    v := data.v
    purpose := data.purpose
    protocolVersion := data.protocolVersion
    serverGeneration := data.serverGeneration
    browser := data.browser
    callerId := data.callerId
    exp := data.exp
    bindingPub := bindingPub
    mac := mac }

/-- A ticket together with its MAC preimage. -/
structure ParsedTicket where
  ticket : TicketWire
  macInput : Bytes
  encoded : ticketMacInput ticket = .ok macInput

/-- `none` for anything that cannot be canonically decoded at all. -/
def parseTicketWire (wire : Json) : Option ParsedTicket :=
  match ticketWireSchema wire with
  | none => none
  | some data =>
      match data.decode with
      | .error _ => none
      | .ok ticket =>
          match encoded : ticketMacInput ticket with
          | .error _ => none
          | .ok macInput => some ⟨ticket, macInput, encoded⟩

/-- The rows from the MAC check to the browser check. -/
def rowsBeforeReplay (crypto : TicketCrypto) (wire : Json)
    (ctx : TicketContext) : Except TicketAbortReason ParsedTicket :=
  match parseTicketWire wire with
  | none => .error .schema
  | some parsed =>
      let t := parsed.ticket
      let expectedMac :=
        crypto.hmacSha256 (deriveTicketKey crypto ctx.localToken)
          parsed.macInput
      if t.mac ≠ expectedMac then .error .macMismatch
      else if t.v ≠ ticketVersion ∨ t.purpose ≠ ticketPurpose ∨
          t.protocolVersion ≠ ticketProtocolVersion then
        .error .formatMismatch
      else if ¬ validateBindingPub crypto t.bindingPub then
        .error .bindingKeyInvalid
      else if ctx.helloTicketBindingKey ≠ some t.bindingPub then
        .error .bindingKeyMismatch
      else if t.callerId ≠ ctx.helloClaimedExtensionId then
        .error .callerIdMismatch
      else if t.browser ≠ ctx.helloBrowser then .error .browserMismatch
      else .ok parsed

def expMs (t : TicketWire) : Int :=
  (t.exp : Int) * 1000

/-- The rows after the replay row; none of them touches the cache again. -/
def rowsAfterReplay (t : TicketWire) (ctx : TicketContext) : TicketVerdict :=
  let deferredProof : DeferredTicketProof := ⟨t.bindingPub⟩
  if expMs t > ctx.nowMs + maxRemainingLifetimeMs then .abort .expTooFar
  else if t.serverGeneration ≠ ctx.serverGeneration then
    .downgrade .unknownGeneration deferredProof
  else if expMs t ≤ ctx.nowMs then .downgrade .expired deferredProof
  else .attested t.callerId deferredProof

def verifyNmTicket (crypto : TicketCrypto) (wire : Json)
    (ctx : TicketContext) (replay : TicketReplayCache) :
    TicketVerdict × TicketReplayCache :=
  match rowsBeforeReplay crypto wire ctx with
  | .error reason => (.abort reason, replay)
  | .ok parsed =>
      let macKey := toBase64Url parsed.ticket.mac
      let pruned := replay.prune ctx.nowMs
      if pruned.has macKey then (.abort .replayed, pruned)
      else
        (rowsAfterReplay parsed.ticket ctx,
          pruned.add macKey (expMs parsed.ticket) ctx.nowMs)

end Motrix.Bridge
