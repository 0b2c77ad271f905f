import Motrix.Bridge.TicketReplay
import Motrix.Lib.ByteCodec

/-!
# When a consumed ticket MAC stays consumed

The replay row promises a one-shot ticket.  It keeps the promise exactly for
the MACs consumed within the remaining-lifetime bound; a ticket that the next
row rejects as too far in the future is forgotten one minute later and can
then be attested.
-/

namespace Motrix.Bridge

open Motrix.Lib

variable {crypto : TicketCrypto} {before : List TicketCall}
  {call : TicketCall} {ticket : TicketWire}

theorem ClockNondecreasing.of_append {first second : List TicketCall}
    (clock : ClockNondecreasing (first ++ second)) :
    ClockNondecreasing second := by
  simp only [ClockNondecreasing, List.map_append, List.pairwise_append]
    at clock
  exact clock.2.1

theorem attestations_eq_zero {mac : Bytes}
    {outcomes : List (TicketCall × TicketVerdict)}
    (refused : ∀ outcome ∈ outcomes, outcome.1.presentedMac = some mac →
      outcome.2.isAttested = false) :
    attestations mac outcomes = 0 := by
  simp only [attestations, List.countP_eq_zero, Bool.and_eq_true,
    decide_eq_true_eq, not_and, Bool.not_eq_true]
  exact refused

/-- Calls that never bring `mac` to the replay row attest nothing for it. -/
theorem Unconsumed.run {mac : Bytes}
    (fresh : Unconsumed crypto before mac) (replay : TicketReplayCache) :
    ∀ outcome ∈ runTickets crypto replay before,
      outcome.1.presentedMac = some mac → outcome.2.isAttested = false := by
  induction before generalizing replay with
  | nil => simp [runTickets]
  | cons first later induction =>
      intro outcome member same
      rcases List.mem_cons.mp member with head | tail
      · subst head
        obtain ⟨-, refused, -⟩ | ⟨other, reached, presented, -⟩ :=
          verify_cases crypto first replay
        · exact refused
        · rw [presented] at same
          exact absurd (Option.some.inj same) (fresh first (by simp) _ reached)
      · refine induction ?_ _ outcome tail same
        exact fun laterCall laterMember =>
          fresh laterCall (by simp [laterMember])

/-- After a timely first use the MAC is spent until its ticket expires. -/
theorem Unconsumed.spent (fresh : Unconsumed crypto before ticket.mac)
    (reached : call.replayRowTicket crypto = some ticket)
    (timely : expMs ticket ≤ call.ctx.nowMs + maxRemainingLifetimeMs) :
    Spent (cacheAfter crypto .empty (before ++ [call])) ticket.mac
      (expMs ticket) call.ctx.nowMs := by
  rw [cacheAfter_append]
  simp only [cacheAfter]
  rw [fresh.verify reached]
  left
  refine ⟨(toBase64Url ticket.mac, _), List.mem_cons_self, rfl, ?_⟩
  exact le_min (le_refl _) timely

theorem consumedForGood_of_timely
    (fresh : Unconsumed crypto before ticket.mac)
    (reached : call.replayRowTicket crypto = some ticket)
    (timely : expMs ticket ≤ call.ctx.nowMs + maxRemainingLifetimeMs) :
    ConsumedForGood crypto before call ticket.mac := by
  intro later clock collisionFree
  have callMember : call ∈ before ++ call :: later := by simp
  have callClock : ClockNondecreasing (call :: later) := clock.of_append
  simp only [ClockNondecreasing, List.map_cons, List.pairwise_cons]
    at callClock
  have sameExp : ∀ laterCall ∈ later, ∀ laterTicket,
      laterCall.replayRowTicket crypto = some laterTicket →
      laterTicket.mac = ticket.mac → expMs laterTicket = expMs ticket := by
    intro laterCall member laterTicket laterReached same
    exact collisionFree.sameExp (by simp [member]) callMember laterReached
      reached same
  have started : ∀ laterCall ∈ later,
      call.ctx.nowMs ≤ laterCall.ctx.nowMs := by
    intro laterCall member
    exact callClock.1 _ (List.mem_map_of_mem member)
  have refused :=
    (fresh.spent reached timely).run started callClock.2 sameExp
  refine ⟨refused, ?_⟩
  have split : before ++ call :: later = (before ++ [call]) ++ later := by
    simp
  have beforeNone := attestations_eq_zero (fresh.run .empty)
  have laterNone := attestations_eq_zero refused
  rw [split, runTickets_append, runTickets_append]
  simp only [attestations, List.countP_append, runTickets] at *
  rw [beforeNone, laterNone, Nat.zero_add, Nat.add_zero]
  exact List.countP_le_length

/-- The last moment before the ticket expires, on a bridge of its own
generation. -/
def lastMoment (call : TicketCall) (ticket : TicketWire) : TicketCall :=
  { call with
    ctx := { call.ctx with
      nowMs := expMs ticket - 1
      serverGeneration := ticket.serverGeneration } }

theorem lastMoment_replayRowTicket (crypto : TicketCrypto) (call : TicketCall)
    (ticket : TicketWire) :
    (lastMoment call ticket).replayRowTicket crypto =
      call.replayRowTicket crypto := rfl

/-- A MAC consumed too early has been forgotten at that moment, and its ticket
is attested. -/
theorem lastMoment_attested (fresh : Unconsumed crypto before ticket.mac)
    (reached : call.replayRowTicket crypto = some ticket)
    (early : call.ctx.nowMs + maxRemainingLifetimeMs < expMs ticket) :
    ((lastMoment call ticket).verify crypto
      (cacheAfter crypto .empty (before ++ [call]))).1.isAttested = true := by
  have recorded := fresh.verify reached
  have absent := fresh.absent reached
  rw [cacheAfter_append]
  simp only [cacheAfter]
  rw [recorded]
  obtain ⟨missed, -⟩ | ⟨other, otherReached, -, outcome⟩ :=
    verify_cases crypto (lastMoment call ticket)
      (((cacheAfter crypto .empty before).prune call.ctx.nowMs).add
        (toBase64Url ticket.mac) (expMs ticket) call.ctx.nowMs)
  · rw [lastMoment_replayRowTicket, reached] at missed
    cases missed
  · rw [lastMoment_replayRowTicket, reached] at otherReached
    cases otherReached
    obtain ⟨seen, -⟩ | ⟨-, verdict, -⟩ := outcome
    · simp only [TicketReplayCache.has, TicketReplayCache.prune,
        TicketReplayCache.add, List.any_eq_true, List.mem_filter,
        List.mem_cons, decide_eq_true_eq, lastMoment] at seen
      obtain ⟨entry, ⟨new | old, kept⟩, key⟩ := seen
      · rw [new] at kept
        have retained := of_decide_eq_true kept
        simp only at retained
        omega
      · exact absurd key (absent entry old.1.1)
    · rw [verdict]
      have alive : ¬ expMs ticket ≤ expMs ticket - 1 := by omega
      have near : ¬ expMs ticket >
          expMs ticket - 1 + maxRemainingLifetimeMs := by
        simp only [maxRemainingLifetimeMs]
        omega
      simp only [rowsAfterReplay, lastMoment, near, alive, if_false, ne_eq,
        not_true, TicketVerdict.isAttested]

theorem lastMoment_clock (clock : ClockNondecreasing (before ++ [call]))
    (early : call.ctx.nowMs + maxRemainingLifetimeMs < expMs ticket) :
    ClockNondecreasing (before ++ [call, lastMoment call ticket]) := by
  simp only [ClockNondecreasing, List.map_append, List.pairwise_append,
    List.map_cons, List.map_nil, List.pairwise_cons, List.mem_cons,
    List.not_mem_nil, or_false] at clock ⊢
  have ordered : call.ctx.nowMs ≤ (lastMoment call ticket).ctx.nowMs := by
    simp only [lastMoment, maxRemainingLifetimeMs] at early ⊢
    omega
  refine ⟨clock.1, ⟨by simpa using ordered, by simp⟩, ?_⟩
  rintro earlier member reading (rfl | rfl)
  · exact clock.2.2 earlier member _ rfl
  · exact le_trans (clock.2.2 earlier member _ rfl) ordered

theorem lastMoment_collisionFree
    (collisionFree : MacsCollisionFree crypto (before ++ [call])) :
    MacsCollisionFree crypto (before ++ [call, lastMoment call ticket]) := by
  -- The repeated call computes no HMAC that `call` did not compute.
  have source : ∀ member ∈ before ++ [call, lastMoment call ticket],
      ∃ original ∈ before ++ [call],
        member.macQuery crypto = original.macQuery crypto := by
    intro member listed
    simp only [List.mem_append, List.mem_cons, List.not_mem_nil, or_false]
      at listed
    rcases listed with earlier | rfl | rfl
    · exact ⟨member, by simp [earlier], rfl⟩
    · exact ⟨member, by simp, rfl⟩
    · exact ⟨call, by simp, rfl⟩
  intro left leftMember right rightMember leftQuery rightQuery leftAsked
    rightAsked same
  obtain ⟨leftSource, leftListed, leftSame⟩ := source left leftMember
  obtain ⟨rightSource, rightListed, rightSame⟩ := source right rightMember
  exact collisionFree leftSource leftListed rightSource rightListed _ _
    (leftSame ▸ leftAsked) (rightSame ▸ rightAsked) same

/-- One-shot tickets: a MAC first consumed by `call` stays consumed exactly
when its ticket was within the remaining-lifetime bound. -/
theorem consumedForGood_iff_timely (crypto : TicketCrypto)
    (before : List TicketCall) (call : TicketCall) (ticket : TicketWire)
    (reached : call.replayRowTicket crypto = some ticket)
    (fresh : Unconsumed crypto before ticket.mac)
    (clock : ClockNondecreasing (before ++ [call]))
    (collisionFree : MacsCollisionFree crypto (before ++ [call])) :
    ConsumedForGood crypto before call ticket.mac ↔
      expMs ticket ≤ call.ctx.nowMs + maxRemainingLifetimeMs := by
  constructor
  · intro consumed
    by_contra early
    push Not at early
    have refused := (consumed [lastMoment call ticket]
      (lastMoment_clock clock early)
      (lastMoment_collisionFree collisionFree)).1
    have attested := lastMoment_attested fresh reached early
    rw [refused (lastMoment call ticket, _) List.mem_cons_self] at attested
    · cases attested
    · obtain ⟨parsed, rows, rfl⟩ := replayRowTicket_eq_some reached
      obtain ⟨parse, -⟩ := rowsBeforeReplay_eq_ok rows
      simp [TicketCall.presentedMac, lastMoment, parse]
  · exact consumedForGood_of_timely fresh reached

/-! ## A ticket presented before its minute -/

/-- HKDF-SHA-256, HMAC-SHA-256 and the Ed25519 decoder on the one ticket
below, whose binding key is the base point. -/
def sampleCrypto : TicketCrypto where
  hkdf32 := fun _ _ _ =>
    [100, 128, 33, 205, 12, 221, 71, 200, 202, 150, 47, 233, 144, 94, 35, 125,
      129, 28, 254, 155, 238, 149, 236, 181, 65, 25, 124, 13, 200, 197, 93,
      198]
  hmacSha256 := fun _ _ =>
    [50, 55, 48, 202, 49, 105, 79, 117, 249, 64, 227, 209, 208, 76, 19, 208,
      40, 95, 19, 104, 105, 39, 121, 183, 72, 58, 60, 171, 206, 100, 110, 197]
  pointFromBytes := fun _ => some
    { is0 := false, isSmallOrder := false, isTorsionFree := true }

def sampleTicket : TicketWire where
  v := 1
  purpose := "mbp1-attestation"
  protocolVersion := 1
  serverGeneration := "generation-1"
  browser := "chrome"
  callerId := "abcdefghijklmnopabcdefghijklmnop"
  exp := 1700000100
  bindingPub := 0x58 :: List.replicate 31 0x66
  mac :=
    [50, 55, 48, 202, 49, 105, 79, 117, 249, 64, 227, 209, 208, 76, 19, 208,
      40, 95, 19, 104, 105, 39, 121, 183, 72, 58, 60, 171, 206, 100, 110, 197]

/-- The sample ticket presented at `nowMs`. -/
def sampleCall (nowMs : Int) : TicketCall where
  wire := .object
    [("v", .number 1), ("purpose", .string "mbp1-attestation"),
      ("protocolVersion", .number 1),
      ("serverGeneration", .string "generation-1"),
      ("browser", .string "chrome"),
      ("callerId", .string "abcdefghijklmnopabcdefghijklmnop"),
      ("exp", .number 1700000100),
      ("bindingPub", .string "WGZmZmZmZmZmZmZmZmZmZmZmZmZmZmZmZmZmZmZmZmY"),
      ("mac", .string "MjcwyjFpT3X5QOPR0EwT0ChfE2hpJ3m3SDo8q85kbsU")]
  ctx :=
    { localToken := "local-token"
      serverGeneration := "generation-1"
      nowMs := nowMs
      helloBrowser := "chrome"
      helloClaimedExtensionId := "abcdefghijklmnopabcdefghijklmnop"
      helloTicketBindingKey := some (0x58 :: List.replicate 31 0x66) }

theorem sampleCall_macsCollisionFree (first second : Int) :
    MacsCollisionFree sampleCrypto [sampleCall first, sampleCall second] := by
  have sameQuery : ∀ member ∈ [sampleCall first, sampleCall second],
      member.macQuery sampleCrypto = (sampleCall 0).macQuery sampleCrypto := by
    intro member listed
    simp only [List.mem_cons, List.not_mem_nil, or_false] at listed
    rcases listed with rfl | rfl <;> rfl
  intro left leftMember right rightMember leftQuery rightQuery leftAsked
    rightAsked _
  rw [sameQuery left leftMember] at leftAsked
  rw [sameQuery right rightMember, leftAsked] at rightAsked
  exact Option.some.inj rightAsked

/-- The first presentation, 100 s before `exp`, is rejected as too far in the
future; the second, 70 s later, is attested. -/
theorem earlyTicket_attestedLater :
    (sampleCall 1700000000000).replayRowTicket sampleCrypto =
        some sampleTicket ∧
      (runTickets sampleCrypto .empty
          [sampleCall 1700000000000, sampleCall 1700000070000]).map
          (fun outcome => outcome.2) =
        [.abort .expTooFar,
          .attested "abcdefghijklmnopabcdefghijklmnop"
            ⟨sampleTicket.bindingPub⟩] ∧
      ¬ ConsumedForGood sampleCrypto [] (sampleCall 1700000000000)
        sampleTicket.mac := by
  refine ⟨by decide +kernel, by decide +kernel, fun consumed => ?_⟩
  have refused := (consumed [sampleCall 1700000070000]
    (by simp [ClockNondecreasing, sampleCall])
    (sampleCall_macsCollisionFree _ _)).1
  have attested : ((sampleCall 1700000070000).verify sampleCrypto
      (cacheAfter sampleCrypto .empty
        ([] ++ [sampleCall 1700000000000]))).1.isAttested = true := by
    decide +kernel
  rw [refused (sampleCall 1700000070000, _) List.mem_cons_self
    (by decide +kernel)] at attested
  cases attested

/-- Ten seconds before `exp` the same ticket is consumed for good. -/
theorem sampleTicket_consumedForGood :
    ConsumedForGood sampleCrypto [] (sampleCall 1700000090000)
      sampleTicket.mac :=
  (consumedForGood_iff_timely sampleCrypto [] (sampleCall 1700000090000)
    sampleTicket (by decide +kernel)
    (fun _ member => absurd member List.not_mem_nil)
    (by simp [ClockNondecreasing])
    (by
      intro left leftMember right rightMember
      simp only [List.nil_append, List.mem_singleton] at *
      exact sampleCall_macsCollisionFree 1700000090000 1700000090000 left
        (by simp [leftMember]) right (by simp [rightMember]))).mpr
    (by decide)

end Motrix.Bridge

/-!
# Tickets minted by the native host

The native-messaging host is a second implementation of the ticket encodings:
it works on the UTF-8 bytes of its strings and on fixed-width integers, and it
panics where the server's encoder raises.  Its MAC preimage is the one the
server recomputes from the parsed wire form, so what decides an unmodified
ticket is left to the rows about its binding key, its generation and its
lifetime.
-/

namespace Motrix.Bridge

open Motrix.Lib

namespace NativeHost

/-- A `str`; no allocation is larger than `isize::MAX` bytes. -/
structure Str where
  text : String
  allocated : (utf8ToBytes text).length < 2 ^ 63

namespace Str

def asBytes (s : Str) : Bytes :=
  utf8ToBytes s.text

def isAscii (s : Str) : Bool :=
  s.asBytes.all fun byte => byte < 0x80

end Str

def len64LE (len : UInt64) : Bytes :=
  littleEndian 8 len.toNat

def enc (bytes : Bytes) : Bytes :=
  len64LE (UInt64.ofNat bytes.length) ++ bytes

def encAscii (s : Str) : Option Bytes :=
  if s.isAscii then some (enc s.asBytes) else none

def encU32BE (n : UInt32) : Bytes :=
  bigEndian 4 n.toNat

def encU64BE (n : UInt64) : Bytes :=
  bigEndian 8 n.toNat

/-- `URL_SAFE_NO_PAD.encode` -/
def base64urlEncode (bytes : Bytes) : String :=
  toBase64Url bytes

def ticketV : UInt32 := 1
def ticketProtocolVersion : UInt32 := 1

def ticketPurpose : Str where
  text := "mbp1-attestation"
  allocated := by decide +kernel

def ticketLifetimeSeconds : UInt64 := 60
def ticketKeySalt : Bytes := utf8ToBytes "MBP1/nm-ticket/v1"
def ticketKeyInfo : Bytes := utf8ToBytes "mac"

structure TicketInputs where
  serverGeneration : Str
  browser : Str
  callerId : Str
  exp : UInt64
  bindingPub : Bytes
  bindingPub_length : bindingPub.length = 32

def deriveTicketKey (crypto : TicketCrypto) (localToken : Str) : Bytes :=
  crypto.hkdf32 localToken.asBytes ticketKeySalt ticketKeyInfo

/-- `none` where one of the `expect`s panics. -/
def ticketCanonical (inputs : TicketInputs) : Option Bytes := do
  let domainTag ← encAscii ticketPurpose
  let serverGeneration ← encAscii inputs.serverGeneration
  let browser ← encAscii inputs.browser
  let callerId ← encAscii inputs.callerId
  return domainTag ++ encU32BE ticketV ++ encU32BE ticketProtocolVersion ++
    serverGeneration ++ browser ++ callerId ++ encU64BE inputs.exp ++
    enc inputs.bindingPub

def ticketMac (crypto : TicketCrypto) (ticketKey canonical : Bytes) : Bytes :=
  crypto.hmacSha256 ticketKey canonical

structure NmTicket where
  v : UInt32
  purpose : Str
  protocolVersion : UInt32
  serverGeneration : Str
  browser : Str
  callerId : Str
  exp : UInt64
  bindingPub : String
  mac : String

def mintTicket (crypto : TicketCrypto) (localToken : Str)
    (inputs : TicketInputs) : Option NmTicket := do
  let ticketKey := deriveTicketKey crypto localToken
  let canonical ← ticketCanonical inputs
  let mac := ticketMac crypto ticketKey canonical
  return {
    v := ticketV
    purpose := ticketPurpose
    protocolVersion := ticketProtocolVersion
    serverGeneration := inputs.serverGeneration
    browser := inputs.browser
    callerId := inputs.callerId
    exp := inputs.exp
    bindingPub := base64urlEncode inputs.bindingPub
    mac := base64urlEncode mac }

/-- The object a JavaScript reader finds in the serialized ticket, its
integers at most `Number.MAX_SAFE_INTEGER`. -/
def NmTicket.serialize (ticket : NmTicket) : Json :=
  .object
    [("v", .number ticket.v.toNat),
      ("purpose", .string ticket.purpose.text),
      ("protocolVersion", .number ticket.protocolVersion.toNat),
      ("serverGeneration", .string ticket.serverGeneration.text),
      ("browser", .string ticket.browser.text),
      ("callerId", .string ticket.callerId.text),
      ("exp", .number ticket.exp.toNat),
      ("bindingPub", .string ticket.bindingPub),
      ("mac", .string ticket.mac)]

/-! ## The two encoders agree -/

theorem Str.isAscii_iff (s : Str) :
    s.isAscii = true ↔ Bridge.isAscii s.text = true := by
  unfold Str.isAscii Str.asBytes Bridge.isAscii utf8ToBytes
  rw [toUTF8_toList, List.all_eq_true, List.all_eq_true]
  simp only [List.mem_flatMap, decide_eq_true_eq, forall_exists_index, and_imp]
  constructor
  · intro small character member
    apply ascii_of_utf8EncodeChar
    intro byte encoded
    exact small byte character member encoded
  · intro ascii byte character member encoded
    have code := ascii character member
    rw [utf8EncodeChar_ascii code, List.mem_singleton] at encoded
    subst encoded
    rw [UInt8.lt_iff_toNat_lt, UInt8.toNat_ofNat']
    have limit : (0x80 : UInt8).toNat = 0x80 := rfl
    omega

theorem Str.asBytes_ascii {s : Str} (ascii : s.isAscii = true) :
    s.asBytes = asciiBytes s.text := by
  unfold Str.asBytes utf8ToBytes asciiBytes
  rw [toUTF8_toList]
  apply flatMap_utf8EncodeChar_ascii
  intro character member
  have all : Bridge.isAscii s.text = true := s.isAscii_iff.mp ascii
  unfold Bridge.isAscii at all
  simpa using List.all_eq_true.mp all character member

theorem enc_agrees {bytes : Bytes} (bound : bytes.length < 2 ^ 64) :
    Bridge.enc (.bytes bytes) = .ok (enc bytes) := by
  have width : bytes.length % 2 ^ 64 = bytes.length := Nat.mod_eq_of_lt bound
  unfold Bridge.enc Bridge.len64LE
  simp only [if_pos bound]
  unfold enc len64LE
  rw [UInt64.toNat_ofNat', width]
  rfl

/-- `enc_ascii` is `enc` on strings, with `None` for the raised error. -/
theorem encAscii_agrees {s : Str} {encoded : Bytes}
    (success : encAscii s = some encoded) :
    Bridge.enc (.string s.text) = .ok encoded := by
  unfold encAscii at success
  split at success
  case isFalse => cases success
  case isTrue ascii =>
    cases success
    have size : s.asBytes.length < 2 ^ 64 :=
      Nat.lt_trans s.allocated (by decide)
    have bytes := enc_agrees size
    rw [s.asBytes_ascii ascii] at bytes ⊢
    have text := s.isAscii_iff.mp ascii
    unfold Bridge.enc assertAscii at *
    simp only [text, if_true]
    exact bytes

theorem encU32BE_agrees (n : UInt32) :
    Bridge.encU32BE n.toNat = .ok (encU32BE n) :=
  if_pos n.toNat_lt

theorem encU64BE_agrees (n : UInt64) :
    Bridge.encU64BE n.toNat = .ok (encU64BE n) :=
  if_pos n.toNat_lt

/-- The fields the server decodes from a minted ticket. -/
def TicketInputs.wire (inputs : TicketInputs) (mac : Bytes) : TicketWire where
  v := ticketV.toNat
  purpose := ticketPurpose.text
  protocolVersion := ticketProtocolVersion.toNat
  serverGeneration := inputs.serverGeneration.text
  browser := inputs.browser.text
  callerId := inputs.callerId.text
  exp := inputs.exp.toNat
  bindingPub := inputs.bindingPub
  mac := mac

theorem ticketCanonical_agrees {inputs : TicketInputs} {canonical : Bytes}
    (minted : ticketCanonical inputs = some canonical) (mac : Bytes) :
    ticketMacInput (inputs.wire mac) = .ok canonical := by
  unfold ticketCanonical at minted
  simp only [Option.bind_eq_bind, Option.bind_eq_some_iff, Option.pure_def,
    Option.some.injEq] at minted
  obtain ⟨domainTag, tagEncoded, generation, generationEncoded, browser,
    browserEncoded, caller, callerEncoded, rfl⟩ := minted
  have keySize : inputs.bindingPub.length < 2 ^ 64 := by
    rw [inputs.bindingPub_length]
    decide
  have tag : Bridge.enc (.string Bridge.ticketPurpose) = .ok domainTag :=
    encAscii_agrees tagEncoded
  unfold ticketMacInput TicketInputs.wire
  simp only [tag, encU32BE_agrees, encAscii_agrees generationEncoded,
    encAscii_agrees browserEncoded, encAscii_agrees callerEncoded,
    encU64BE_agrees, enc_agrees keySize, List.append_assoc]
  rfl

/-! ## The wire form is read back -/

theorem NmTicket.serialize_schema (ticket : NmTicket)
    (readable : ticket.exp.toNat ≤ maxExpSeconds) :
    ticketWireSchema ticket.serialize = some
      { v := ticket.v.toNat
        purpose := ticket.purpose.text
        protocolVersion := ticket.protocolVersion.toNat
        serverGeneration := ticket.serverGeneration.text
        browser := ticket.browser.text
        callerId := ticket.callerId.text
        exp := ticket.exp.toNat
        bindingPub := ticket.bindingPub
        mac := ticket.mac } := by
  have strict : ticket.serialize.strictObject ticketWireKeys = some
      [("v", .number ticket.v.toNat),
        ("purpose", .string ticket.purpose.text),
        ("protocolVersion", .number ticket.protocolVersion.toNat),
        ("serverGeneration", .string ticket.serverGeneration.text),
        ("browser", .string ticket.browser.text),
        ("callerId", .string ticket.callerId.text),
        ("exp", .number ticket.exp.toNat),
        ("bindingPub", .string ticket.bindingPub),
        ("mac", .string ticket.mac)] := rfl
  have format : ticket.v.toNat ≤ 0xffffffff := by
    have bound := ticket.v.toNat_lt
    omega
  have protocol : ticket.protocolVersion.toNat ≤ 0xffffffff := by
    have bound := ticket.protocolVersion.toNat_lt
    omega
  unfold ticketWireSchema
  simp [strict, Json.field, List.lookup_cons, Json.asString,
    Json.asNatural_natCast, format, protocol, readable]

/-- The fields the server reads off a ticket with the given MAC. -/
def TicketInputs.fields (inputs : TicketInputs) (mac : Bytes) :
    TicketFields where
  v := ticketV.toNat
  purpose := ticketPurpose.text
  protocolVersion := ticketProtocolVersion.toNat
  serverGeneration := inputs.serverGeneration.text
  browser := inputs.browser.text
  callerId := inputs.callerId.text
  exp := inputs.exp.toNat
  bindingPub := base64urlEncode inputs.bindingPub
  mac := base64urlEncode mac

theorem TicketInputs.fields_decode (inputs : TicketInputs) (mac : Bytes) :
    (inputs.fields mac).decode = .ok (inputs.wire mac) := by
  unfold TicketFields.decode fields base64urlEncode
  simp only [fromBase64Url_toBase64Url]
  rfl

/-- The wire form of a minted ticket decodes to the minted fields, and the
preimage the server rebuilds from it is the one the host authenticated. -/
theorem mintTicket_parsed {crypto : TicketCrypto} {localToken : Str}
    {inputs : TicketInputs} {ticket : NmTicket}
    (minted : mintTicket crypto localToken inputs = some ticket)
    (readable : inputs.exp.toNat ≤ maxExpSeconds) :
    ∃ parsed, parseTicketWire ticket.serialize = some parsed ∧
      ticketCanonical inputs = some parsed.macInput ∧
      parsed.ticket = inputs.wire (ticketMac crypto
        (deriveTicketKey crypto localToken) parsed.macInput) ∧
      ticket.mac = toBase64Url parsed.ticket.mac := by
  unfold mintTicket at minted
  simp only [Option.bind_eq_bind, Option.bind_eq_some_iff, Option.pure_def,
    Option.some.injEq] at minted
  obtain ⟨canonical, encoded, rfl⟩ := minted
  let mac := ticketMac crypto (deriveTicketKey crypto localToken) canonical
  have macInput : ticketMacInput (inputs.wire mac) = .ok canonical :=
    ticketCanonical_agrees encoded mac
  refine ⟨⟨inputs.wire mac, canonical, macInput⟩, ?_, encoded, rfl, rfl⟩
  apply parseTicketWire_eq_some
  · exact NmTicket.serialize_schema _ readable
  · exact inputs.fields_decode mac

theorem deriveTicketKey_agrees (crypto : TicketCrypto) (localToken : Str) :
    Bridge.deriveTicketKey crypto localToken.text =
      deriveTicketKey crypto localToken := by
  have salt : Bridge.ticketKeySalt = ticketKeySalt := by decide +kernel
  have info : Bridge.ticketKeyInfo = ticketKeyInfo := by decide +kernel
  unfold Bridge.deriveTicketKey deriveTicketKey
  rw [salt, info]
  rfl

/-! ## Presenting a minted ticket -/

/-- The hello of the caller a ticket was minted for, at a server that holds
the same local token. -/
structure SameCaller (localToken : Str) (inputs : TicketInputs)
    (ctx : TicketContext) : Prop where
  localToken : ctx.localToken = localToken.text
  browser : ctx.helloBrowser = inputs.browser.text
  callerId : ctx.helloClaimedExtensionId = inputs.callerId.text
  bindingKey : ctx.helloTicketBindingKey = some inputs.bindingPub

theorem mintTicket_rowsBeforeReplay {crypto : TicketCrypto} {localToken : Str}
    {inputs : TicketInputs} {ctx : TicketContext} {parsed : ParsedTicket}
    {wire : Json} (parse : parseTicketWire wire = some parsed)
    (fields : parsed.ticket = inputs.wire (ticketMac crypto
      (deriveTicketKey crypto localToken) parsed.macInput))
    (caller : SameCaller localToken inputs ctx) :
    rowsBeforeReplay crypto wire ctx =
      if validateBindingPub crypto inputs.bindingPub then .ok parsed
      else .error .bindingKeyInvalid := by
  have version : ticketV.toNat = ticketVersion := rfl
  have purpose : NativeHost.ticketPurpose.text = Bridge.ticketPurpose := rfl
  have protocol : NativeHost.ticketProtocolVersion.toNat =
      Bridge.ticketProtocolVersion := rfl
  unfold rowsBeforeReplay
  simp only [parse, fields, TicketInputs.wire, caller.localToken,
    caller.browser, caller.callerId, caller.bindingKey,
    deriveTicketKey_agrees, ticketMac, version, purpose, protocol]
  by_cases usable : validateBindingPub crypto inputs.bindingPub = true
  · simp [usable]
  · simp [usable]

/-- An unmodified and unreplayed ticket is attested when its binding key is a
usable one, its generation is live and it has at most a minute left. -/
theorem mintedTicket_attested_iff (crypto : TicketCrypto) (localToken : Str)
    (inputs : TicketInputs) (ticket : NmTicket)
    (minted : mintTicket crypto localToken inputs = some ticket)
    (readable : inputs.exp.toNat ≤ maxExpSeconds) :
    ∃ parsed, parseTicketWire ticket.serialize = some parsed ∧
      ticketMacInput parsed.ticket = .ok parsed.macInput ∧
      ticketCanonical inputs = some parsed.macInput ∧
      ∀ (ctx : TicketContext) (replay : TicketReplayCache),
        SameCaller localToken inputs ctx →
          (replay.prune ctx.nowMs).has ticket.mac = false →
            ((verifyNmTicket crypto ticket.serialize ctx replay).1 =
                .attested inputs.callerId.text ⟨inputs.bindingPub⟩ ↔
              validateBindingPub crypto inputs.bindingPub = true ∧
                inputs.serverGeneration.text = ctx.serverGeneration ∧
                ctx.nowMs < (inputs.exp.toNat : Int) * 1000 ∧
                (inputs.exp.toNat : Int) * 1000 ≤
                  ctx.nowMs + maxRemainingLifetimeMs) := by
  obtain ⟨parsed, parse, encoded, fields, macText⟩ :=
    mintTicket_parsed minted readable
  refine ⟨parsed, parse, parsed.encoded, encoded, ?_⟩
  intro ctx replay caller unreplayed
  have rows := mintTicket_rowsBeforeReplay parse fields caller
  rw [macText] at unreplayed
  unfold verifyNmTicket
  rw [rows]
  by_cases usable : validateBindingPub crypto inputs.bindingPub = true
  · simp only [usable, if_true, unreplayed, true_and]
    rw [fields]
    exact rowsAfterReplay_attested_iff (inputs.wire _) ctx
  · simp [usable]

/-! ## A ticket of an earlier generation -/

def sampleToken : Str where
  text := "local-token"
  allocated := by decide +kernel

/-- The inputs from which the host mints `sampleTicket`. -/
def sampleInputs : TicketInputs where
  serverGeneration := ⟨"generation-1", by decide +kernel⟩
  browser := ⟨"chrome", by decide +kernel⟩
  callerId := ⟨"abcdefghijklmnopabcdefghijklmnop", by decide +kernel⟩
  exp := 1700000100
  bindingPub := 0x58 :: List.replicate 31 0x66
  bindingPub_length := rfl

/-- A server of the given generation, fifty seconds before the expiry. -/
def sampleContext (generation : String) : TicketContext where
  localToken := "local-token"
  serverGeneration := generation
  nowMs := 1700000050000
  helloBrowser := "chrome"
  helloClaimedExtensionId := "abcdefghijklmnopabcdefghijklmnop"
  helloTicketBindingKey := some (0x58 :: List.replicate 31 0x66)

theorem sampleContext_sameCaller (generation : String) :
    SameCaller sampleToken sampleInputs (sampleContext generation) where
  localToken := rfl
  browser := rfl
  callerId := rfl
  bindingKey := rfl

/-- What the server says about the ticket minted from the inputs. -/
def presented (crypto : TicketCrypto) (inputs : TicketInputs)
    (ctx : TicketContext) : Option TicketVerdict :=
  (mintTicket crypto sampleToken inputs).map fun ticket =>
    (verifyNmTicket crypto ticket.serialize ctx .empty).1

/-- Unexpired tickets presented by their own caller that are not attested:
one from before a restart of the server, one with more than a minute left,
one for a key that is no point, and one whose expiry the parser refuses. -/
theorem mintedTickets_refused :
    (∀ generation,
      SameCaller sampleToken sampleInputs (sampleContext generation)) ∧
    presented sampleCrypto sampleInputs (sampleContext "generation-2") =
      some (.downgrade .unknownGeneration ⟨sampleInputs.bindingPub⟩) ∧
    presented sampleCrypto sampleInputs
        { sampleContext "generation-1" with nowMs := 1700000000000 } =
      some (.abort .expTooFar) ∧
    presented { sampleCrypto with pointFromBytes := fun _ => none }
        { sampleInputs with
          bindingPub := List.replicate 32 0xff
          bindingPub_length := rfl }
        { sampleContext "generation-1" with
          helloTicketBindingKey := some (List.replicate 32 0xff) } =
      some (.abort .bindingKeyInvalid) ∧
    presented sampleCrypto { sampleInputs with exp := 9007199254741 }
        (sampleContext "generation-1") = some (.abort .schema) := by
  refine ⟨sampleContext_sameCaller, ?_, ?_, ?_, ?_⟩
  · decide +kernel
  · decide +kernel
  · decide +kernel
  · decide +kernel

theorem liveServer_attests :
    ∃ ticket, mintTicket sampleCrypto sampleToken sampleInputs = some ticket ∧
      (verifyNmTicket sampleCrypto ticket.serialize
          (sampleContext "generation-1") .empty).1 =
        .attested "abcdefghijklmnopabcdefghijklmnop"
          ⟨sampleInputs.bindingPub⟩ := by
  have isSome :
      (mintTicket sampleCrypto sampleToken sampleInputs).isSome = true := by
    decide +kernel
  obtain ⟨ticket, minted⟩ := Option.isSome_iff_exists.mp isSome
  obtain ⟨parsed, -, -, -, attested⟩ := mintedTicket_attested_iff sampleCrypto
    sampleToken sampleInputs ticket minted (by decide +kernel)
  refine ⟨ticket, minted, ?_⟩
  apply (attested (sampleContext "generation-1") .empty
    (sampleContext_sameCaller _) rfl).mpr
  exact ⟨by decide +kernel, rfl, by decide +kernel, by decide +kernel⟩

end NativeHost

end Motrix.Bridge
