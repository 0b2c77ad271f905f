import Motrix.Bridge.Frames

/-!
# Transcripts and key schedules

The byte strings both parties authenticate: the SPAKE2 transcript of a first
pairing and the reconnect transcript.
-/

namespace Motrix.Bridge

open Motrix.Lib

/-- The primitives of the handshake.  `verifySignature` is RFC 8032
verification and `none` where it throws. -/
structure HandshakeCrypto extends TicketCrypto where
  sha256 : Bytes → Bytes
  verifySignature : (signature message publicKey : Bytes) → Option Bool

/-- `concatBytes` over encodings; the first encoder that throws wins. -/
def concatEncodings (parts : List Encoding) : Encoding := do
  let encoded ← parts.mapM id
  return encoded.flatten

/-! ## First pairing -/

def buildAId (browser verifiedOrigin claimedExtensionId
    clientInstallationId : String) (safariInstallationKey : Option String) :
    Encoding :=
  concatEncodings
    ([enc (.string "MBP1/A/v1"), enc (.string browser),
        enc (.string verifiedOrigin), enc (.string claimedExtensionId),
        enc (.string clientInstallationId)] ++
      match safariInstallationKey with
      | none => []
      | some key =>
          [enc (.string "MBP1/safari-installation/v1"), enc (.string key)])

def buildBId (instanceId : String) : Encoding :=
  concatEncodings
    [enc (.string "MBP1/B/v1"), enc (.string "motrix-bridge"),
      enc (.string instanceId)]

def ticketDigest (crypto : HandshakeCrypto) (t : TicketWire) : Encoding := do
  let data ← concatEncodings
    [encU32BE t.v, enc (.string t.purpose), encU32BE t.protocolVersion,
      enc (.string t.serverGeneration), enc (.string t.browser),
      enc (.string t.callerId), encU64BE t.exp, enc (.bytes t.bindingPub),
      enc (.bytes t.mac)]
  return crypto.sha256 data

/-- `enc(value ?? "")` -/
def encOrEmpty (value : Option Bytes) : Encoding :=
  match value with
  | none => enc (.string "")
  | some bytes => enc (.bytes bytes)

def buildAad (protocolVersion : Nat) (pairNonce : String)
    (ticketBindingKey digest : Option Bytes) : Encoding :=
  concatEncodings
    [encU32BE protocolVersion, enc (.string pairNonce),
      encOrEmpty ticketBindingKey, encOrEmpty digest]

/-- `I2OSP(w, 32)` -/
def i2ospScalar (w : Nat) : Encoding :=
  if w < 2 ^ 256 then .ok (bigEndian 32 w)
  else .error ⟨"w does not fit in 32 bytes"⟩

def buildTT (aIdentity bIdentity pA pB k : Bytes) (w : Nat) : Encoding := do
  let scalar ← i2ospScalar w
  concatEncodings
    [enc (.bytes aIdentity), enc (.bytes bIdentity), enc (.bytes pA),
      enc (.bytes pB), enc (.bytes k), enc (.bytes scalar)]

structure KeySchedule where
  ke : Bytes
  ka : Bytes
  kcA : Bytes
  kcB : Bytes
  deriving DecidableEq, Repr

def keySchedule (crypto : HandshakeCrypto) (tt aad : Bytes) : KeySchedule :=
  let digest := crypto.sha256 tt
  let ka := digest.drop 16
  let confirmation :=
    crypto.hkdf32 ka [] (utf8ToBytes "ConfirmationKeys" ++ aad)
  { ke := digest.take 16
    ka := ka
    kcA := confirmation.take 16
    kcB := confirmation.drop 16 }

structure ConfirmationMacs where
  cA : Bytes
  cB : Bytes
  deriving DecidableEq, Repr

def confirmationMacs (crypto : HandshakeCrypto) (kcA kcB tt : Bytes) :
    ConfirmationMacs :=
  { cA := crypto.hmacSha256 kcA tt
    cB := crypto.hmacSha256 kcB tt }

structure TrafficKeys where
  kC2S : Bytes
  kS2C : Bytes
  deriving DecidableEq, Repr

def pairTrafficKeys (crypto : HandshakeCrypto) (ke : Bytes) : TrafficKeys :=
  { kC2S := crypto.hkdf32 ke (utf8ToBytes "MBP1/pair/v1")
      (utf8ToBytes "MBP1-pair-traffic-c2s")
    kS2C := crypto.hkdf32 ke (utf8ToBytes "MBP1/pair/v1")
      (utf8ToBytes "MBP1-pair-traffic-s2c") }

/-- `verifyTicketProofStrict` -/
def verifyTicketProofStrict (crypto : HandshakeCrypto)
    (bindingPub tt signature : Bytes) : Bool :=
  if signature.length ≠ signatureBytes then false
  else
    (crypto.verifySignature signature
      (utf8ToBytes "MBP1/ticket-proof/v1" ++ tt) bindingPub).getD false

/-! ## Reconnecting -/

def buildRT (protocolVersion : Nat)
    (credentialId browser verifiedOrigin instanceId : String) : Encoding :=
  concatEncodings
    [enc (.string "MBP1/reconnect/v1"), encU32BE protocolVersion,
      enc (.string credentialId), enc (.string browser),
      enc (.string verifiedOrigin), enc (.string instanceId)]

def reconnectMacClient (crypto : HandshakeCrypto)
    (mutualKey s c rt : Bytes) : Bytes :=
  crypto.hmacSha256 mutualKey (utf8ToBytes "MBP1-R/c" ++ s ++ c ++ rt)

def reconnectMacServer (crypto : HandshakeCrypto)
    (mutualKey s c rt : Bytes) : Bytes :=
  crypto.hmacSha256 mutualKey (utf8ToBytes "MBP1-R/s" ++ s ++ c ++ rt)

def reconnectTrafficKeys (crypto : HandshakeCrypto)
    (mutualKey s c : Bytes) : TrafficKeys :=
  { kC2S := crypto.hkdf32 mutualKey (s ++ c) (utf8ToBytes "MBP1-traffic-c2s")
    kS2C := crypto.hkdf32 mutualKey (s ++ c)
      (utf8ToBytes "MBP1-traffic-s2c") }

/-- The digest of a presented ticket, or no bytes without one.  A ticket the
schema refuses throws. -/
def resumeTicketDigest (crypto : HandshakeCrypto) :
    Option Json → Encoding
  | none => .ok []
  | some wire =>
      match nmTicketWireSchema wire with
      | none => .error ⟨"nmTicket"⟩
      | some fields => do
          let ticket ← fields.decode
          ticketDigest crypto ticket

def bindSafariResume (crypto : HandshakeCrypto) (rt : Bytes)
    (publicKey : Bytes) (nmTicket : Option Json) : Encoding := do
  let digest ← resumeTicketDigest crypto nmTicket
  concatEncodings
    [.ok rt, enc (.string "MBP1/safari-resume/v1"), enc (.bytes publicKey),
      enc (.bytes digest)]

/-- Every failure inside, a throw included, refuses the proof. -/
def verifySafariResume (crypto : HandshakeCrypto)
    (publicKey proof s c rt : Bytes) : Bool :=
  if ¬ validateBindingPub crypto.toTicketCrypto publicKey then false
  else
    match enc (.string "MBP1/safari-resume-proof/v1") with
    | .error _ => false
    | .ok label =>
        (crypto.verifySignature proof (label ++ s ++ c ++ rt)
          publicKey).getD false

end Motrix.Bridge
