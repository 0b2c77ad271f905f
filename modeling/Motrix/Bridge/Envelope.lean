import Motrix.Bridge.Canonical

/-!
# The AEAD envelope

Every post-handshake frame is `seq64BE ‖ ciphertext ‖ tag`.  Each direction
counts its frames and its encrypted blocks; a frame is opened only at exactly
the expected sequence number.

The cipher is ideal: a ciphertext opens exactly when it was produced under the
same key, nonce and additional data, which the ledger of sealings records.
-/

namespace Motrix.Bridge

open Motrix.Lib

inductive EnvelopeDirection where
  | c2s
  | s2c
  deriving DecidableEq, Repr

def EnvelopeDirection.tag : EnvelopeDirection → Nat
  | .c2s => 1
  | .s2c => 2

inductive EnvelopeError where
  | violation (message : String)
  | limit (message : String)
  | encoding (failure : ProtocolViolationError)
  deriving DecidableEq, Repr

def EnvelopeError.isLimit : EnvelopeError → Bool
  | .limit _ => true
  | _ => false

def envelopeAad : Bytes := asciiBytes "MBP1/env/v1"
def seqLength : Nat := 8
def tagLength : Nat := 16
def blockSize : Nat := 16
def maxEnvelopePlaintextBytes : Nat := 1024 * 1024
def maxEnvelopeFrames : Nat := 2 ^ 24
def maxEnvelopeBlocks : Nat := 2 ^ 30

inductive EnvelopeSide where
  | outbound
  | inbound
  deriving DecidableEq, Repr

def EnvelopeSide.text : EnvelopeSide → String
  | .outbound => "outbound"
  | .inbound => "inbound"

def assertFrameBoundNotReached (seq : Nat) (side : EnvelopeSide) :
    Except EnvelopeError Unit :=
  if seq ≥ maxEnvelopeFrames then
    .error (.limit ("envelope " ++ side.text ++
      " frame-count usage bound reached (2^24 frames); reconnect required"))
  else .ok ()

def assertBlockBoundNotReached (blockCount blocks : Nat)
    (side : EnvelopeSide) : Except EnvelopeError Unit :=
  if blockCount + blocks > maxEnvelopeBlocks then
    .error (.limit ("envelope " ++ side.text ++
      " encrypted-block usage bound reached (2^30 blocks); reconnect required"))
  else .ok ()

/-- `ceil(length / BLOCK_SIZE)` -/
def blockCountFor (length : Nat) : Nat :=
  (length + (blockSize - 1)) / blockSize

def buildNonce (dir : EnvelopeDirection) (seqBytes : Bytes) : Encoding := do
  let dirTag ← encU32BE dir.tag
  return dirTag ++ seqBytes

/-! ## The ideal cipher -/

/-- AES-256-GCM as an encryption function: the ciphertext is as long as the
plaintext and the tag has sixteen bytes. -/
structure Aead where
  ciphertext : (key nonce aad plaintext : Bytes) → Bytes
  authTag : (key nonce aad plaintext : Bytes) → Bytes
  ciphertext_length : ∀ key nonce aad plaintext,
    (ciphertext key nonce aad plaintext).length = plaintext.length
  authTag_length : ∀ key nonce aad plaintext,
    (authTag key nonce aad plaintext).length = tagLength

/-- One use of the encryption function. -/
structure Sealing where
  key : Bytes
  nonce : Bytes
  aad : Bytes
  plaintext : Bytes
  ciphertext : Bytes
  tag : Bytes
  deriving DecidableEq, Repr

def Aead.encrypt (aead : Aead) (key nonce aad plaintext : Bytes) : Sealing :=
  { key := key
    nonce := nonce
    aad := aad
    plaintext := plaintext
    ciphertext := aead.ciphertext key nonce aad plaintext
    tag := aead.authTag key nonce aad plaintext }

/-- Decryption authenticates exactly the recorded sealings. -/
def decrypt (ledger : List Sealing) (key nonce aad ciphertext tag : Bytes) :
    Option Bytes :=
  (ledger.find? fun sealing =>
    sealing.key = key ∧ sealing.nonce = nonce ∧ sealing.aad = aad ∧
      sealing.ciphertext = ciphertext ∧ sealing.tag = tag).map
    fun sealing => sealing.plaintext

/-! ## Sealer and opener -/

structure EnvelopeSealer where
  key : Bytes
  dir : EnvelopeDirection
  seq : Nat
  blockCount : Nat
  deriving DecidableEq, Repr

structure EnvelopeOpener where
  key : Bytes
  dir : EnvelopeDirection
  seq : Nat
  blockCount : Nat
  deriving DecidableEq, Repr

/-- The frame together with the use of the cipher that produced it. -/
structure SealedFrame where
  frame : Bytes
  sealing : Sealing
  deriving DecidableEq, Repr

def EnvelopeSealer.seal (aead : Aead) (sealer : EnvelopeSealer)
    (plaintext : Bytes) : Except EnvelopeError SealedFrame × EnvelopeSealer :=
  if plaintext.length > maxEnvelopePlaintextBytes then
    (.error (.violation ("envelope plaintext of " ++
      toString plaintext.length ++ " bytes exceeds the 1 MiB frame limit")),
      sealer)
  else
    match assertFrameBoundNotReached sealer.seq .outbound with
    | .error failure => (.error failure, sealer)
    | .ok () =>
        let blocks := blockCountFor plaintext.length
        match assertBlockBoundNotReached sealer.blockCount blocks .outbound with
        | .error failure => (.error failure, sealer)
        | .ok () =>
            match encU64BE sealer.seq with
            | .error failure => (.error (.encoding failure), sealer)
            | .ok seqBytes =>
                match buildNonce sealer.dir seqBytes with
                | .error failure => (.error (.encoding failure), sealer)
                | .ok nonce =>
                    let sealing :=
                      aead.encrypt sealer.key nonce envelopeAad plaintext
                    (.ok
                      { frame := seqBytes ++ sealing.ciphertext ++ sealing.tag
                        sealing := sealing },
                      { sealer with
                        seq := sealer.seq + 1
                        blockCount := sealer.blockCount + blocks })

/-- `EnvelopeOpener.open` -/
def EnvelopeOpener.openFrame (ledger : List Sealing) (opener : EnvelopeOpener)
    (frame : Bytes) : Except EnvelopeError Bytes × EnvelopeOpener :=
  if frame.length < seqLength + tagLength then
    (.error (.violation ("envelope frame of " ++ toString frame.length ++
      " bytes is shorter than the seq+tag minimum")), opener)
  else if frame.length - seqLength - tagLength > maxEnvelopePlaintextBytes then
    (.error (.violation
      "envelope frame carries more than the 1 MiB plaintext limit"), opener)
  else
    match assertFrameBoundNotReached opener.seq .inbound with
    | .error failure => (.error failure, opener)
    | .ok () =>
        let seqBytes := frame.take seqLength
        if os2ip seqBytes ≠ opener.seq then
          (.error (.violation ("envelope sequence mismatch: expected " ++
            toString opener.seq)), opener)
        else
          let ciphertext :=
            (frame.drop seqLength).take (frame.length - tagLength - seqLength)
          let tag := frame.drop (frame.length - tagLength)
          match buildNonce opener.dir seqBytes with
          | .error failure => (.error (.encoding failure), opener)
          | .ok nonce =>
              match decrypt ledger opener.key nonce envelopeAad ciphertext
                tag with
              | none =>
                  (.error (.violation "envelope GCM authentication failed"),
                    opener)
              | some plaintext =>
                  -- Counted on the authenticated plaintext, not on the frame.
                  let blocks := blockCountFor plaintext.length
                  match assertBlockBoundNotReached opener.blockCount blocks
                    .inbound with
                  | .error failure => (.error failure, opener)
                  | .ok () =>
                      (.ok plaintext,
                        { opener with
                          seq := opener.seq + 1
                          blockCount := opener.blockCount + blocks })

end Motrix.Bridge
