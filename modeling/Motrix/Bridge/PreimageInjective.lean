import Motrix.Bridge.Transcript
import Motrix.Lib.Except

/-!
# Preimages determine their fields

A preimage is a list of parts, each of which says where it ends.  Lists whose
parts are of the same kinds as far as both go encode to the same bytes only
when they are equal.  The one identification is that of the associated data,
which encodes an absent key or digest as the empty one.
-/

namespace Motrix.Bridge

open Motrix.Lib

/-- One component of a preimage. -/
inductive PreimagePart where
  | string (value : String)
  | bytes (value : Bytes)
  | u32 (value : Nat)
  | u64 (value : Nat)
  deriving DecidableEq, Repr

inductive PreimageKind where
  | string
  | bytes
  | u32
  | u64
  deriving DecidableEq, Repr

namespace PreimagePart

def kind : PreimagePart → PreimageKind
  | .string _ => .string
  | .bytes _ => .bytes
  | .u32 _ => .u32
  | .u64 _ => .u64

def encode : PreimagePart → Encoding
  | .string value => enc (.string value)
  | .bytes value => enc (.bytes value)
  | .u32 value => encU32BE value
  | .u64 value => encU64BE value

/-- A part is read off the front of a preimage in one way. -/
theorem encode_append_inj {left right : PreimagePart}
    (alike : left.kind = right.kind)
    {leftBytes rightBytes leftRest rightRest : Bytes}
    (leftEncoded : left.encode = .ok leftBytes)
    (rightEncoded : right.encode = .ok rightBytes)
    (same : leftBytes ++ leftRest = rightBytes ++ rightRest) :
    left = right ∧ leftRest = rightRest := by
  cases left with
  | string left =>
      cases right with
      | string right =>
          change enc (.string left) = .ok leftBytes at leftEncoded
          change enc (.string right) = .ok rightBytes at rightEncoded
          obtain ⟨payloads, rests⟩ :=
            enc_append_inj leftEncoded rightEncoded same
          have values : left = right :=
            asciiBytes_injective (enc_eq_ok leftEncoded).1.1
              (enc_eq_ok rightEncoded).1.1 payloads
          exact ⟨congrArg string values, rests⟩
      | bytes right => cases alike
      | u32 right => cases alike
      | u64 right => cases alike
  | bytes left =>
      cases right with
      | bytes right =>
          change enc (.bytes left) = .ok leftBytes at leftEncoded
          change enc (.bytes right) = .ok rightBytes at rightEncoded
          obtain ⟨payloads, rests⟩ :=
            enc_append_inj leftEncoded rightEncoded same
          exact ⟨congrArg bytes payloads, rests⟩
      | string right => cases alike
      | u32 right => cases alike
      | u64 right => cases alike
  | u32 left =>
      cases right with
      | u32 right =>
          obtain ⟨values, rests⟩ :=
            encU32BE_append_inj leftEncoded rightEncoded same
          exact ⟨congrArg u32 values, rests⟩
      | string right => cases alike
      | bytes right => cases alike
      | u64 right => cases alike
  | u64 left =>
      cases right with
      | u64 right =>
          obtain ⟨values, rests⟩ :=
            encU64BE_append_inj leftEncoded rightEncoded same
          exact ⟨congrArg u64 values, rests⟩
      | string right => cases alike
      | bytes right => cases alike
      | u32 right => cases alike

/-- No part encodes to nothing. -/
theorem encode_ne_nil {part : PreimagePart} {encoded : Bytes}
    (success : part.encode = .ok encoded) : encoded ≠ [] := by
  have positive : 0 < encoded.length := by
    cases part with
    | string value =>
        change enc (.string value) = .ok encoded at success
        obtain ⟨-, rfl⟩ := enc_eq_ok success
        simp
    | bytes value =>
        change enc (.bytes value) = .ok encoded at success
        obtain ⟨-, rfl⟩ := enc_eq_ok success
        simp
    | u32 value =>
        obtain ⟨-, rfl⟩ := encU32BE_eq_ok success
        simp
    | u64 value =>
        obtain ⟨-, rfl⟩ := encU64BE_eq_ok success
        simp
  exact List.ne_nil_of_length_pos positive

end PreimagePart

/-- A preimage from its parts. -/
def preimage (parts : List PreimagePart) : Encoding :=
  concatEncodings (parts.map PreimagePart.encode)

theorem concatEncodings_cons {head : Encoding} {rest : List Encoding}
    {encoded : Bytes} :
    concatEncodings (head :: rest) = .ok encoded ↔
      ∃ front back, head = .ok front ∧ concatEncodings rest = .ok back ∧
        encoded = front ++ back := by
  unfold concatEncodings
  simp only [List.mapM_cons, id_eq, bind_eq_ok, pure_eq_ok]
  constructor
  · rintro ⟨pieces, ⟨front, first, others, later, rfl⟩, rfl⟩
    exact ⟨front, others.flatten, first, ⟨others, later, rfl⟩, rfl⟩
  · rintro ⟨front, back, first, ⟨others, later, rfl⟩, rfl⟩
    exact ⟨front :: others, ⟨front, first, others, later, rfl⟩, rfl⟩

theorem concatEncodings_nil : concatEncodings [] = .ok [] := rfl

theorem preimage_injective {left right : List PreimagePart}
    {encoded : Bytes}
    (alike : ∀ pair ∈ left.zip right, pair.1.kind = pair.2.kind)
    (leftEncoded : preimage left = .ok encoded)
    (rightEncoded : preimage right = .ok encoded) : left = right := by
  unfold preimage at leftEncoded rightEncoded
  induction left generalizing right encoded with
  | nil =>
      cases right with
      | nil => rfl
      | cons part rest =>
          rw [List.map_nil, concatEncodings_nil] at leftEncoded
          cases leftEncoded
          obtain ⟨front, back, first, -, empty⟩ :=
            concatEncodings_cons.mp rightEncoded
          have nothing := (List.append_eq_nil_iff.mp empty.symm).1
          exact absurd nothing (PreimagePart.encode_ne_nil first)
  | cons part rest induction =>
      obtain ⟨front, back, first, later, rfl⟩ :=
        concatEncodings_cons.mp leftEncoded
      cases right with
      | nil =>
          rw [List.map_nil, concatEncodings_nil] at rightEncoded
          have empty : front ++ back = [] := (Except.ok.inj rightEncoded).symm
          have nothing := (List.append_eq_nil_iff.mp empty).1
          exact absurd nothing (PreimagePart.encode_ne_nil first)
      | cons otherPart otherRest =>
          obtain ⟨otherFront, otherBack, otherFirst, otherLater, same⟩ :=
            concatEncodings_cons.mp rightEncoded
          have kinds : part.kind = otherPart.kind :=
            alike (part, otherPart) (by simp)
          obtain ⟨heads, rfl⟩ :=
            PreimagePart.encode_append_inj kinds first otherFirst same
          have tails : rest = otherRest :=
            induction (fun pair member => alike pair (by simp [member])) later
              otherLater
          rw [heads, tails]

/-! ## The four preimages -/

structure AIdFields where
  browser : String
  verifiedOrigin : String
  claimedExtensionId : String
  clientInstallationId : String
  safariInstallationKey : Option String
  deriving DecidableEq, Repr

namespace AIdFields

def encode (f : AIdFields) : Encoding :=
  buildAId f.browser f.verifiedOrigin f.claimedExtensionId
    f.clientInstallationId f.safariInstallationKey

def parts (f : AIdFields) : List PreimagePart :=
  [.string "MBP1/A/v1", .string f.browser, .string f.verifiedOrigin,
      .string f.claimedExtensionId, .string f.clientInstallationId] ++
    match f.safariInstallationKey with
    | none => []
    | some key => [.string "MBP1/safari-installation/v1", .string key]

theorem encode_eq_preimage (f : AIdFields) : f.encode = preimage f.parts := by
  obtain ⟨browser, origin, extension, installation, safari⟩ := f
  cases safari with
  | none => rfl
  | some key => rfl

theorem parts_injective {left right : AIdFields}
    (same : left.parts = right.parts) : left = right := by
  obtain ⟨browser, origin, extension, installation, safari⟩ := left
  obtain ⟨browser', origin', extension', installation', safari'⟩ := right
  cases safari with
  | none =>
      cases safari' with
      | none => simpa [parts] using same
      | some key' => simp [parts] at same
  | some key =>
      cases safari' with
      | none => simp [parts] at same
      | some key' => simpa [parts] using same

theorem parts_alike (left right : AIdFields) :
    ∀ pair ∈ left.parts.zip right.parts, pair.1.kind = pair.2.kind := by
  have strings : ∀ (f : AIdFields), ∀ part ∈ f.parts,
      part.kind = .string := by
    intro f part member
    obtain ⟨browser, origin, extension, installation, safari⟩ := f
    cases safari with
    | none =>
        simp only [parts, List.append_nil, List.mem_cons, List.not_mem_nil,
          or_false] at member
        rcases member with rfl | rfl | rfl | rfl | rfl <;> rfl
    | some key =>
        simp only [parts, List.mem_append, List.mem_cons, List.not_mem_nil,
          or_false] at member
        rcases member with (rfl | rfl | rfl | rfl | rfl) | rfl | rfl <;> rfl
  rintro ⟨first, second⟩ member
  obtain ⟨inLeft, inRight⟩ := List.of_mem_zip member
  rw [strings left first inLeft, strings right second inRight]

theorem encode_injective {left right : AIdFields} {encoded : Bytes}
    (leftEncoded : left.encode = .ok encoded)
    (rightEncoded : right.encode = .ok encoded) : left = right := by
  rw [encode_eq_preimage] at leftEncoded rightEncoded
  apply parts_injective
  exact preimage_injective (parts_alike left right) leftEncoded rightEncoded

end AIdFields

/-- What `ticketDigest` hashes. -/
def ticketDigestPreimage (t : TicketWire) : Encoding :=
  concatEncodings
    [encU32BE t.v, enc (.string t.purpose), encU32BE t.protocolVersion,
      enc (.string t.serverGeneration), enc (.string t.browser),
      enc (.string t.callerId), encU64BE t.exp, enc (.bytes t.bindingPub),
      enc (.bytes t.mac)]

def digestFields (t : TicketWire) : List PreimagePart :=
  [.u32 t.v, .string t.purpose, .u32 t.protocolVersion,
    .string t.serverGeneration, .string t.browser, .string t.callerId,
    .u64 t.exp, .bytes t.bindingPub, .bytes t.mac]

theorem ticketDigestPreimage_eq_preimage (t : TicketWire) :
    ticketDigestPreimage t = preimage (digestFields t) := rfl

theorem digestFields_injective {left right : TicketWire}
    (same : digestFields left = digestFields right) : left = right := by
  obtain ⟨v, purpose, version, generation, browser, caller, exp, key, mac⟩ :=
    left
  simp only [digestFields, List.cons.injEq, PreimagePart.u32.injEq,
    PreimagePart.string.injEq, PreimagePart.u64.injEq,
    PreimagePart.bytes.injEq, and_true] at same
  obtain ⟨rfl, rfl, rfl, rfl, rfl, rfl, rfl, rfl, rfl⟩ := same
  rfl

theorem ticketDigestPreimage_injective {left right : TicketWire}
    {encoded : Bytes}
    (leftEncoded : ticketDigestPreimage left = .ok encoded)
    (rightEncoded : ticketDigestPreimage right = .ok encoded) :
    left = right := by
  rw [ticketDigestPreimage_eq_preimage] at leftEncoded rightEncoded
  apply digestFields_injective
  apply preimage_injective _ leftEncoded rightEncoded
  simp [digestFields, PreimagePart.kind]

structure AadFields where
  protocolVersion : Nat
  pairNonce : String
  ticketBindingKey : Option Bytes
  digest : Option Bytes
  deriving DecidableEq, Repr

namespace AadFields

def encode (f : AadFields) : Encoding :=
  buildAad f.protocolVersion f.pairNonce f.ticketBindingKey f.digest

/-- The fields with an absent key or digest read as the empty one. -/
def present (f : AadFields) : Nat × String × Bytes × Bytes :=
  (f.protocolVersion, f.pairNonce, f.ticketBindingKey.getD [],
    f.digest.getD [])

theorem encOrEmpty_eq_enc (value : Option Bytes) :
    encOrEmpty value = enc (.bytes (value.getD [])) := by
  cases value with
  | none => rfl
  | some bytes => rfl

theorem encode_eq_preimage (f : AadFields) :
    f.encode = preimage
      [.u32 f.protocolVersion, .string f.pairNonce,
        .bytes (f.ticketBindingKey.getD []), .bytes (f.digest.getD [])] := by
  unfold encode buildAad
  rw [encOrEmpty_eq_enc, encOrEmpty_eq_enc]
  rfl

theorem present_injective {left right : AadFields} {encoded : Bytes}
    (leftEncoded : left.encode = .ok encoded)
    (rightEncoded : right.encode = .ok encoded) :
    left.present = right.present := by
  rw [encode_eq_preimage] at leftEncoded rightEncoded
  have same := preimage_injective (by simp [PreimagePart.kind]) leftEncoded
    rightEncoded
  simpa [present] using same

end AadFields

/-- What the ticket MAC covers. -/
def macFields (t : TicketWire) : List PreimagePart :=
  [.string ticketPurpose, .u32 t.v, .u32 t.protocolVersion,
    .string t.serverGeneration, .string t.browser, .string t.callerId,
    .u64 t.exp, .bytes t.bindingPub]

theorem ticketMacInput_eq_preimage {t : TicketWire} {encoded : Bytes}
    (success : ticketMacInput t = .ok encoded) :
    preimage (macFields t) = .ok encoded := by
  unfold ticketMacInput at success
  simp only [bind_eq_ok, pure_eq_ok] at success
  obtain ⟨tag, tagEncoded, v, vEncoded, version, versionEncoded, generation,
    generationEncoded, browser, browserEncoded, caller, callerEncoded, exp,
    expEncoded, key, keyEncoded, rfl⟩ := success
  unfold preimage macFields
  simp only [List.map_cons, List.map_nil, PreimagePart.encode]
  apply concatEncodings_cons.mpr
  refine ⟨_, _, tagEncoded, ?_, rfl⟩
  apply concatEncodings_cons.mpr
  refine ⟨_, _, vEncoded, ?_, rfl⟩
  apply concatEncodings_cons.mpr
  refine ⟨_, _, versionEncoded, ?_, rfl⟩
  apply concatEncodings_cons.mpr
  refine ⟨_, _, generationEncoded, ?_, rfl⟩
  apply concatEncodings_cons.mpr
  refine ⟨_, _, browserEncoded, ?_, rfl⟩
  apply concatEncodings_cons.mpr
  refine ⟨_, _, callerEncoded, ?_, rfl⟩
  apply concatEncodings_cons.mpr
  refine ⟨_, _, expEncoded, ?_, rfl⟩
  apply concatEncodings_cons.mpr
  exact ⟨_, _, keyEncoded, concatEncodings_nil, (List.append_nil _).symm⟩

/-- The tickets agree in every field the MAC covers. -/
def SameMacFields (left right : TicketWire) : Prop :=
  left.v = right.v ∧ left.protocolVersion = right.protocolVersion ∧
    left.serverGeneration = right.serverGeneration ∧
    left.browser = right.browser ∧ left.callerId = right.callerId ∧
    left.exp = right.exp ∧ left.bindingPub = right.bindingPub

theorem ticketMacInput_injective {left right : TicketWire} {encoded : Bytes}
    (leftEncoded : ticketMacInput left = .ok encoded)
    (rightEncoded : ticketMacInput right = .ok encoded) :
    SameMacFields left right := by
  have same : macFields left = macFields right := by
    apply preimage_injective _ (ticketMacInput_eq_preimage leftEncoded)
      (ticketMacInput_eq_preimage rightEncoded)
    simp [macFields, PreimagePart.kind]
  simpa [macFields, SameMacFields] using same

/-! ## Transcripts -/

/-- What the key schedule of one handshake is computed from. -/
structure HandshakeContext where
  identity : AIdFields
  instanceId : String
  pA : Bytes
  pB : Bytes
  k : Bytes
  w : Nat
  aad : AadFields
  deriving DecidableEq, Repr

namespace HandshakeContext

/-- The transcript and the associated data. -/
def transcript (context : HandshakeContext) :
    Except ProtocolViolationError (Bytes × Bytes) := do
  let aIdentity ← context.identity.encode
  let bIdentity ← buildBId context.instanceId
  let tt ← buildTT aIdentity bIdentity context.pA context.pB context.k
    context.w
  let aad ← context.aad.encode
  return (tt, aad)

end HandshakeContext

theorem i2ospScalar_eq_ok {w : Nat} {encoded : Bytes}
    (success : i2ospScalar w = .ok encoded) :
    w < 2 ^ 256 ∧ encoded = bigEndian 32 w := by
  unfold i2ospScalar at success
  split at success
  case isTrue bound => exact ⟨bound, (Except.ok.inj success).symm⟩
  case isFalse => cases success

theorem buildTT_injective {aIdentity bIdentity pA pB k aIdentity' bIdentity'
    pA' pB' k' encoded : Bytes} {w w' : Nat}
    (leftEncoded : buildTT aIdentity bIdentity pA pB k w = .ok encoded)
    (rightEncoded : buildTT aIdentity' bIdentity' pA' pB' k' w' =
      .ok encoded) :
    aIdentity = aIdentity' ∧ bIdentity = bIdentity' ∧ pA = pA' ∧ pB = pB' ∧
      k = k' ∧ w = w' := by
  unfold buildTT at leftEncoded rightEncoded
  simp only [bind_eq_ok] at leftEncoded rightEncoded
  obtain ⟨scalar, leftScalar, leftParts⟩ := leftEncoded
  obtain ⟨scalar', rightScalar, rightParts⟩ := rightEncoded
  have leftPreimage : preimage
      [.bytes aIdentity, .bytes bIdentity, .bytes pA, .bytes pB, .bytes k,
        .bytes scalar] = .ok encoded := leftParts
  have rightPreimage : preimage
      [.bytes aIdentity', .bytes bIdentity', .bytes pA', .bytes pB',
        .bytes k', .bytes scalar'] = .ok encoded := rightParts
  have same := preimage_injective (by simp [PreimagePart.kind]) leftPreimage
    rightPreimage
  simp only [List.cons.injEq, PreimagePart.bytes.injEq, and_true] at same
  obtain ⟨rfl, rfl, rfl, rfl, rfl, scalars⟩ := same
  obtain ⟨bound, rfl⟩ := i2ospScalar_eq_ok leftScalar
  obtain ⟨bound', rfl⟩ := i2ospScalar_eq_ok rightScalar
  have exponents : w = w' :=
    bigEndian_injective (by simpa using bound) (by simpa using bound') scalars
  exact ⟨rfl, rfl, rfl, rfl, rfl, exponents⟩

theorem buildBId_injective {left right : String} {encoded : Bytes}
    (leftEncoded : buildBId left = .ok encoded)
    (rightEncoded : buildBId right = .ok encoded) : left = right := by
  have leftPreimage : preimage
      [.string "MBP1/B/v1", .string "motrix-bridge", .string left] =
        .ok encoded := leftEncoded
  have rightPreimage : preimage
      [.string "MBP1/B/v1", .string "motrix-bridge", .string right] =
        .ok encoded := rightEncoded
  have same := preimage_injective (by simp [PreimagePart.kind]) leftPreimage
    rightPreimage
  simpa using same

namespace HandshakeContext

/-- The contexts agree, with an absent key or digest read as the empty one. -/
def Agrees (left right : HandshakeContext) : Prop :=
  left.identity = right.identity ∧ left.instanceId = right.instanceId ∧
    left.pA = right.pA ∧ left.pB = right.pB ∧ left.k = right.k ∧
    left.w = right.w ∧ left.aad.present = right.aad.present

theorem transcript_agrees {left right : HandshakeContext}
    {shared : Bytes × Bytes} (leftEncoded : left.transcript = .ok shared)
    (rightEncoded : right.transcript = .ok shared) : left.Agrees right := by
  unfold transcript at leftEncoded rightEncoded
  simp only [bind_eq_ok, pure_eq_ok] at leftEncoded rightEncoded
  obtain ⟨aIdentity, leftIdentity, bIdentity, leftInstance, tt, leftTT, aad,
    leftAad, rfl⟩ := leftEncoded
  obtain ⟨aIdentity', rightIdentity, bIdentity', rightInstance, tt', rightTT,
    aad', rightAad, pairs⟩ := rightEncoded
  obtain ⟨rfl, rfl⟩ := Prod.mk.inj pairs
  obtain ⟨rfl, rfl, publicA, publicB, shares, exponents⟩ :=
    buildTT_injective leftTT rightTT
  exact ⟨AIdFields.encode_injective leftIdentity rightIdentity,
    buildBId_injective leftInstance rightInstance, publicA, publicB, shares,
    exponents, AadFields.present_injective leftAad rightAad⟩

end HandshakeContext

/-! ## Preimages determine what they cover -/

theorem preimages_determine_fields :
    (∀ (left right : AIdFields) (encoded : Bytes),
      left.encode = .ok encoded → right.encode = .ok encoded →
        left = right) ∧
    (∀ (left right : TicketWire) (encoded : Bytes),
      ticketDigestPreimage left = .ok encoded →
        ticketDigestPreimage right = .ok encoded → left = right) ∧
    (∀ (left right : AadFields) (encoded : Bytes),
      left.encode = .ok encoded → right.encode = .ok encoded →
        left.present = right.present) ∧
    (∀ (left right : TicketWire) (encoded : Bytes),
      ticketMacInput left = .ok encoded →
        ticketMacInput right = .ok encoded → SameMacFields left right) ∧
    (∀ (left right : HandshakeContext) (shared : Bytes × Bytes),
      left.transcript = .ok shared → right.transcript = .ok shared →
        left.Agrees right) := by
  constructor
  · intro left right encoded leftEncoded rightEncoded
    exact AIdFields.encode_injective leftEncoded rightEncoded
  constructor
  · intro left right encoded leftEncoded rightEncoded
    exact ticketDigestPreimage_injective leftEncoded rightEncoded
  constructor
  · intro left right encoded leftEncoded rightEncoded
    exact AadFields.present_injective leftEncoded rightEncoded
  constructor
  · intro left right encoded leftEncoded rightEncoded
    exact ticketMacInput_injective leftEncoded rightEncoded
  · intro left right shared leftEncoded rightEncoded
    exact HandshakeContext.transcript_agrees leftEncoded rightEncoded

def ticketless : AadFields where
  protocolVersion := 1
  pairNonce := "pairNonce"
  ticketBindingKey := none
  digest := none

def attested : TicketWire where
  v := 1
  purpose := "attestation"
  protocolVersion := 1
  serverGeneration := "generation"
  browser := "chrome"
  callerId := "extension"
  exp := 1
  bindingPub := []
  mac := []

theorem renamedPurpose_sameMacFields :
    ∃ encoded, ticketMacInput attested = .ok encoded ∧
      SameMacFields attested { attested with purpose := ticketPurpose } := by
  have isOk : (ticketMacInput attested).isOk = true := by decide +kernel
  obtain ⟨encoded, success⟩ := exists_ok_of_isOk isOk
  obtain ⟨-, -, -, macInputs, -⟩ := preimages_determine_fields
  exact ⟨encoded, success, macInputs _ _ encoded success success⟩

/-- An absent key encodes as the empty one, and the ticket MAC does not cover
the purpose on the wire. -/
theorem preimages_identify :
    (∃ (left right : AadFields) (encoded : Bytes), left ≠ right ∧
      left.encode = .ok encoded ∧ right.encode = .ok encoded) ∧
    (∃ (left right : TicketWire) (encoded : Bytes),
      left.purpose ≠ right.purpose ∧ left.mac = right.mac ∧
        ticketMacInput left = .ok encoded ∧
        ticketMacInput right = .ok encoded) := by
  constructor
  · have isOk : ticketless.encode.isOk = true := by decide +kernel
    obtain ⟨encoded, success⟩ := exists_ok_of_isOk isOk
    refine ⟨ticketless, { ticketless with ticketBindingKey := some [] },
      encoded, by decide, success, ?_⟩
    rw [← success]
    rfl
  · have isOk : (ticketMacInput attested).isOk = true := by decide +kernel
    obtain ⟨encoded, success⟩ := exists_ok_of_isOk isOk
    refine ⟨attested, { attested with purpose := ticketPurpose }, encoded,
      by decide, rfl, success, ?_⟩
    rw [← success]
    rfl

end Motrix.Bridge
