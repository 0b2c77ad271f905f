import Motrix.Bridge.Envelope

/-!
# One direction of an envelope connection

A sealer, its peer opener and a network that delivers whatever bytes it likes.
The sealer's transcript determines everything else: the opener accepts exactly
the next frame of the transcript and refuses anything else without moving.
-/

namespace Motrix.Bridge

open Motrix.Lib

/-! ## The transcript of a sealer -/

/-- Nonce of the frame with sequence number `seq`. -/
def frameNonce (dir : EnvelopeDirection) (seq : Nat) : Bytes :=
  bigEndian 4 dir.tag ++ bigEndian seqLength seq

def sealingAt (aead : Aead) (key : Bytes) (dir : EnvelopeDirection)
    (seq : Nat) (plaintext : Bytes) : Sealing :=
  aead.encrypt key (frameNonce dir seq) envelopeAad plaintext

def frameAt (aead : Aead) (key : Bytes) (dir : EnvelopeDirection)
    (seq : Nat) (plaintext : Bytes) : Bytes :=
  let sealing := sealingAt aead key dir seq plaintext
  bigEndian seqLength seq ++ sealing.ciphertext ++ sealing.tag

def blocksOf (plaintexts : List Bytes) : Nat :=
  (plaintexts.map fun plaintext => blockCountFor plaintext.length).sum

theorem buildNonce_eq (dir : EnvelopeDirection) (seqBytes : Bytes) :
    buildNonce dir seqBytes = .ok (bigEndian 4 dir.tag ++ seqBytes) := by
  cases dir <;> rfl

theorem frameNonce_injective (dir : EnvelopeDirection) {left right : Nat}
    (leftBound : left < 256 ^ seqLength) (rightBound : right < 256 ^ seqLength)
    (same : frameNonce dir left = frameNonce dir right) : left = right :=
  bigEndian_injective leftBound rightBound
    (List.append_cancel_left same)

/-! ## Sealing -/

theorem seal_of_bounds (aead : Aead) (sealer : EnvelopeSealer)
    (plaintext : Bytes)
    (short : plaintext.length ≤ maxEnvelopePlaintextBytes)
    (frames : sealer.seq < maxEnvelopeFrames)
    (blocks : sealer.blockCount + blockCountFor plaintext.length ≤
      maxEnvelopeBlocks) :
    sealer.seal aead plaintext =
      (.ok
        { frame := frameAt aead sealer.key sealer.dir sealer.seq plaintext
          sealing :=
            sealingAt aead sealer.key sealer.dir sealer.seq plaintext },
        { sealer with
          seq := sealer.seq + 1
          blockCount :=
            sealer.blockCount + blockCountFor plaintext.length }) := by
  have range : sealer.seq < 2 ^ 64 := by
    simp only [maxEnvelopeFrames] at frames
    omega
  simp only [EnvelopeSealer.seal, assertFrameBoundNotReached,
    assertBlockBoundNotReached, Nat.not_lt.mpr short, Nat.not_le.mpr frames,
    Nat.not_lt.mpr blocks, if_false, encU64BE, range, if_true, buildNonce_eq]
  rfl

/-- What the sealer does with a plaintext. -/
theorem seal_cases (aead : Aead) (sealer : EnvelopeSealer)
    (plaintext : Bytes) :
    (∃ failure, sealer.seal aead plaintext = (.error failure, sealer)) ∨
    plaintext.length ≤ maxEnvelopePlaintextBytes ∧
      sealer.seq < maxEnvelopeFrames ∧
      sealer.blockCount + blockCountFor plaintext.length ≤
        maxEnvelopeBlocks := by
  unfold EnvelopeSealer.seal assertFrameBoundNotReached
    assertBlockBoundNotReached
  by_cases long : plaintext.length > maxEnvelopePlaintextBytes
  · left
    simp only [long, if_true]
    exact ⟨_, rfl⟩
  by_cases frames : sealer.seq ≥ maxEnvelopeFrames
  · left
    simp only [long, frames, if_true, if_false]
    exact ⟨_, rfl⟩
  by_cases blocks :
      sealer.blockCount + blockCountFor plaintext.length > maxEnvelopeBlocks
  · left
    simp only [long, frames, blocks, if_true, if_false]
    exact ⟨_, rfl⟩
  exact .inr ⟨by omega, by omega, by omega⟩

/-! ## Opening -/

section Transcript

variable (aead : Aead) (key : Bytes) (dir : EnvelopeDirection)
  (start : Nat) (plaintexts : List Bytes)

def transcriptSealings : List Sealing :=
  plaintexts.mapIdx fun index plaintext =>
    sealingAt aead key dir (start + index) plaintext

def transcriptFrames : List Bytes :=
  plaintexts.mapIdx fun index plaintext =>
    frameAt aead key dir (start + index) plaintext

/-- Sequence numbers used by the transcript stay below the frame bound. -/
def WithinFrames : Prop :=
  start + plaintexts.length ≤ maxEnvelopeFrames ∨ plaintexts = []

end Transcript

variable {aead : Aead} {key : Bytes} {dir : EnvelopeDirection}
  {start : Nat} {plaintexts : List Bytes}

theorem WithinFrames.index_lt {index : Nat}
    (within : WithinFrames start plaintexts)
    (bound : index < plaintexts.length) : start + index < 256 ^ seqLength := by
  rcases within with inside | none
  · have frames : maxEnvelopeFrames < 256 ^ seqLength := by decide
    omega
  · simp [none] at bound

/-- Under the nonce of a sequence number only the sealing of that number
opens. -/
theorem decrypt_transcript_eq_some {seq : Nat}
    (within : WithinFrames start plaintexts) (range : seq < 256 ^ seqLength)
    {ciphertext tag plaintext : Bytes}
    (opened : decrypt (transcriptSealings aead key dir start plaintexts) key
      (frameNonce dir seq) envelopeAad ciphertext tag = some plaintext) :
    ∃ index, plaintexts[index]? = some plaintext ∧ start + index = seq ∧
      (sealingAt aead key dir seq plaintext).ciphertext = ciphertext ∧
      (sealingAt aead key dir seq plaintext).tag = tag := by
  simp only [decrypt, Option.map_eq_some_iff] at opened
  obtain ⟨sealing, found, rfl⟩ := opened
  have matched := List.find?_some found
  simp only [decide_eq_true_eq] at matched
  obtain ⟨-, sameNonce, -, sameCiphertext, sameTag⟩ := matched
  obtain ⟨index, bound, entry⟩ :=
    List.mem_iff_getElem.mp (List.mem_of_find?_eq_some found)
  simp only [transcriptSealings, List.length_mapIdx] at bound
  simp only [transcriptSealings, List.getElem_mapIdx] at entry
  have sameSeq : start + index = seq := by
    refine frameNonce_injective dir (within.index_lt bound) range ?_
    rw [← sameNonce, ← entry]
    rfl
  rw [sameSeq] at entry
  have plain : sealing.plaintext = plaintexts[index] := by
    rw [← entry]
    rfl
  refine ⟨index, by rw [plain, List.getElem?_eq_getElem bound], sameSeq, ?_, ?_⟩
  · rw [plain, entry, sameCiphertext]
  · rw [plain, entry, sameTag]

theorem decrypt_transcript_self (aead : Aead) (key : Bytes)
    (dir : EnvelopeDirection) {index : Nat} {plaintext : Bytes}
    (within : WithinFrames start plaintexts)
    (present : plaintexts[index]? = some plaintext) :
    decrypt (transcriptSealings aead key dir start plaintexts) key
      (frameNonce dir (start + index)) envelopeAad
      (sealingAt aead key dir (start + index) plaintext).ciphertext
      (sealingAt aead key dir (start + index) plaintext).tag =
        some plaintext := by
  obtain ⟨bound, value⟩ := List.getElem?_eq_some_iff.mp present
  cases outcome : decrypt (transcriptSealings aead key dir start plaintexts)
      key (frameNonce dir (start + index)) envelopeAad
      (sealingAt aead key dir (start + index) plaintext).ciphertext
      (sealingAt aead key dir (start + index) plaintext).tag with
  | none =>
      simp only [decrypt, Option.map_eq_none_iff, List.find?_eq_none,
        decide_eq_true_eq] at outcome
      have member : sealingAt aead key dir (start + index) plaintext ∈
          transcriptSealings aead key dir start plaintexts := by
        refine List.mem_iff_getElem.mpr
          ⟨index, by simpa [transcriptSealings] using bound, ?_⟩
        simp only [transcriptSealings, List.getElem_mapIdx, value]
      exact absurd ⟨rfl, rfl, rfl, rfl, rfl⟩ (outcome _ member)
  | some opened =>
      obtain ⟨other, otherPresent, sameSeq, -⟩ :=
        decrypt_transcript_eq_some within (within.index_lt bound) outcome
      have sameIndex : other = index := by omega
      rw [sameIndex, present] at otherPresent
      exact otherPresent.symm

/-- What the opener does with a frame. -/
theorem openFrame_cases (ledger : List Sealing) (opener : EnvelopeOpener)
    (frame : Bytes) :
    (∃ failure, opener.openFrame ledger frame = (.error failure, opener)) ∨
    ∃ plaintext,
      seqLength + tagLength ≤ frame.length ∧
      opener.seq < maxEnvelopeFrames ∧
      os2ip (frame.take seqLength) = opener.seq ∧
      decrypt ledger opener.key
        (bigEndian 4 opener.dir.tag ++ frame.take seqLength) envelopeAad
        ((frame.drop seqLength).take (frame.length - tagLength - seqLength))
        (frame.drop (frame.length - tagLength)) = some plaintext ∧
      opener.openFrame ledger frame =
        (.ok plaintext,
          { opener with
            seq := opener.seq + 1
            blockCount :=
              opener.blockCount + blockCountFor plaintext.length }) := by
  unfold EnvelopeOpener.openFrame assertFrameBoundNotReached
    assertBlockBoundNotReached
  by_cases short : frame.length < seqLength + tagLength
  · left
    simp only [short, if_true]
    exact ⟨_, rfl⟩
  by_cases long :
      frame.length - seqLength - tagLength > maxEnvelopePlaintextBytes
  · left
    simp only [short, long, if_true, if_false]
    exact ⟨_, rfl⟩
  by_cases frames : opener.seq ≥ maxEnvelopeFrames
  · left
    simp only [short, long, frames, if_true, if_false]
    exact ⟨_, rfl⟩
  by_cases inOrder : os2ip (frame.take seqLength) = opener.seq
  · simp only [short, long, frames, inOrder, if_false, ne_eq, not_true,
      buildNonce_eq]
    cases opened : decrypt ledger opener.key
        (bigEndian 4 opener.dir.tag ++ frame.take seqLength) envelopeAad
        ((frame.drop seqLength).take (frame.length - tagLength - seqLength))
        (frame.drop (frame.length - tagLength)) with
    | none => exact .inl ⟨_, rfl⟩
    | some plaintext =>
        by_cases blocks :
            opener.blockCount + blockCountFor plaintext.length >
              maxEnvelopeBlocks
        · left
          simp only [blocks, if_true]
          exact ⟨_, rfl⟩
        · right
          refine ⟨plaintext, by omega, by omega, trivial, rfl, ?_⟩
          simp only [blocks, if_false]
  · left
    simp only [short, long, frames, inOrder, if_true, if_false, ne_eq,
      not_false_eq_true]
    exact ⟨_, rfl⟩

/-- Below the frame bound an out-of-order frame is a violation, not a usage
limit. -/
theorem openFrame_outOfOrder (ledger : List Sealing)
    (opener : EnvelopeOpener) (frame : Bytes)
    (below : opener.seq < maxEnvelopeFrames)
    (different : os2ip (frame.take seqLength) ≠ opener.seq) :
    ∃ message, opener.openFrame ledger frame =
      (.error (.violation message), opener) := by
  unfold EnvelopeOpener.openFrame assertFrameBoundNotReached
  have frames : ¬ opener.seq ≥ maxEnvelopeFrames := by omega
  simp only [frames, different, if_false, ne_eq, not_false_eq_true, if_true]
  split
  · exact ⟨_, rfl⟩
  · split
    · exact ⟨_, rfl⟩
    · exact ⟨_, rfl⟩

/-- At the frame bound every well-sized frame meets the usage limit. -/
theorem openFrame_frameBound (ledger : List Sealing)
    {opener : EnvelopeOpener} {frame : Bytes}
    (long : ¬ frame.length < seqLength + tagLength)
    (capped : ¬ frame.length - seqLength - tagLength >
      maxEnvelopePlaintextBytes)
    (reached : opener.seq ≥ maxEnvelopeFrames) :
    ∃ message, opener.openFrame ledger frame =
      (.error (.limit message), opener) := by
  unfold EnvelopeOpener.openFrame assertFrameBoundNotReached
  simp only [long, capped, reached, if_false, if_true]
  exact ⟨_, rfl⟩

/-! ## Frames of the transcript -/

theorem frameAt_take (seq : Nat) (plaintext : Bytes) :
    (frameAt aead key dir seq plaintext).take seqLength =
      bigEndian seqLength seq := by
  simp [frameAt]

theorem frameAt_length (aead : Aead) (key : Bytes)
    (dir : EnvelopeDirection) (seq : Nat) (plaintext : Bytes) :
    (frameAt aead key dir seq plaintext).length =
      seqLength + plaintext.length + tagLength := by
  simp [frameAt, sealingAt, Aead.encrypt, aead.ciphertext_length,
    aead.authTag_length, Nat.add_assoc]

/-- A frame is its sequence number, its ciphertext and its tag. -/
theorem frame_split {frame : Bytes}
    (long : seqLength + tagLength ≤ frame.length) :
    frame.take seqLength ++
        (frame.drop seqLength).take (frame.length - tagLength - seqLength) ++
        frame.drop (frame.length - tagLength) = frame := by
  have tail : frame.drop (frame.length - tagLength) =
      (frame.drop seqLength).drop
        (frame.length - tagLength - seqLength) := by
    rw [List.drop_drop]
    congr 1
    omega
  rw [tail, List.append_assoc, List.take_append_drop, List.take_append_drop]

theorem frameAt_ciphertext (seq : Nat) (plaintext : Bytes) :
    let frame := frameAt aead key dir seq plaintext
    (frame.drop seqLength).take (frame.length - tagLength - seqLength) =
      (sealingAt aead key dir seq plaintext).ciphertext := by
  intro frame
  have width : frame.length - tagLength - seqLength = plaintext.length := by
    simp only [frame, frameAt_length]
    omega
  have body : frame.drop seqLength =
      (sealingAt aead key dir seq plaintext).ciphertext ++
        (sealingAt aead key dir seq plaintext).tag := by
    simp [frame, frameAt]
  rw [width, body]
  exact List.take_left' (aead.ciphertext_length _ _ _ _)

theorem frameAt_tag (seq : Nat) (plaintext : Bytes) :
    let frame := frameAt aead key dir seq plaintext
    frame.drop (frame.length - tagLength) =
      (sealingAt aead key dir seq plaintext).tag := by
  intro frame
  have width : frame.length - tagLength = seqLength + plaintext.length := by
    simp only [frame, frameAt_length]
    omega
  rw [width]
  refine List.drop_left' ?_
  simp [sealingAt, Aead.encrypt, aead.ciphertext_length]

/-- An accepted frame is the transcript's frame for the expected number. -/
theorem openFrame_ok {opener next : EnvelopeOpener} {frame plaintext : Bytes}
    (within : WithinFrames start plaintexts)
    (sameKey : opener.key = key) (sameDir : opener.dir = dir)
    (accepted : opener.openFrame
      (transcriptSealings aead key dir start plaintexts) frame =
        (.ok plaintext, next)) :
    ∃ index, plaintexts[index]? = some plaintext ∧
      start + index = opener.seq ∧
      (transcriptFrames aead key dir start plaintexts)[index]? = some frame := by
  obtain ⟨failure, rejected⟩ | ⟨opened, long, below, inOrder, decrypted, outcome⟩ :=
    openFrame_cases (transcriptSealings aead key dir start plaintexts) opener
      frame
  · rw [rejected] at accepted
    cases (Prod.mk.inj accepted).1
  rw [outcome] at accepted
  obtain rfl := Except.ok.inj (Prod.mk.inj accepted).1
  have width : (frame.take seqLength).length = seqLength := by
    rw [List.length_take]
    omega
  have seqBytes : frame.take seqLength = bigEndian seqLength opener.seq := by
    rw [← inOrder, os2ip]
    conv_lhs => rw [← bigEndian_ofBigEndian (frame.take seqLength), width]
  have range : opener.seq < 256 ^ seqLength := by
    have frames : maxEnvelopeFrames < 256 ^ seqLength := by decide
    omega
  rw [sameKey, sameDir, seqBytes] at decrypted
  obtain ⟨index, present, sameSeq, sameCiphertext, sameTag⟩ :=
    decrypt_transcript_eq_some within range decrypted
  refine ⟨index, present, sameSeq, ?_⟩
  obtain ⟨bound, value⟩ := List.getElem?_eq_some_iff.mp present
  simp only [transcriptFrames, List.getElem?_mapIdx, present, Option.map_some,
    Option.some.injEq]
  conv_rhs => rw [← frame_split long]
  rw [seqBytes, ← sameCiphertext, ← sameTag, sameSeq]
  rfl

/-- The frame the opener waits for is accepted. -/
theorem openFrame_next {opener : EnvelopeOpener} {index : Nat}
    {plaintext : Bytes} (within : WithinFrames start plaintexts)
    (sameKey : opener.key = key) (sameDir : opener.dir = dir)
    (present : plaintexts[index]? = some plaintext)
    (expected : opener.seq = start + index)
    (short : plaintext.length ≤ maxEnvelopePlaintextBytes)
    (blocks : opener.blockCount + blockCountFor plaintext.length ≤
      maxEnvelopeBlocks) :
    opener.openFrame (transcriptSealings aead key dir start plaintexts)
        (frameAt aead key dir (start + index) plaintext) =
      (.ok plaintext,
        { opener with
          seq := opener.seq + 1
          blockCount :=
            opener.blockCount + blockCountFor plaintext.length }) := by
  obtain ⟨bound, -⟩ := List.getElem?_eq_some_iff.mp present
  have range := within.index_lt bound
  have below : ¬ start + index ≥ maxEnvelopeFrames := by
    rcases within with inside | none
    · omega
    · simp [none] at bound
  have size := frameAt_length aead key dir (start + index) plaintext
  have fits : ¬ (frameAt aead key dir (start + index) plaintext).length <
      seqLength + tagLength := by omega
  have capped : ¬ (frameAt aead key dir (start + index) plaintext).length -
      seqLength - tagLength > maxEnvelopePlaintextBytes := by omega
  have ownSeq : os2ip (bigEndian seqLength (start + index)) = start + index :=
    ofBigEndian_bigEndian range
  have opened := decrypt_transcript_self aead key dir within present
  have counted : ¬ opener.blockCount + blockCountFor plaintext.length >
      maxEnvelopeBlocks := by omega
  unfold EnvelopeOpener.openFrame assertFrameBoundNotReached
    assertBlockBoundNotReached
  rw [frameAt_ciphertext, frameAt_tag]
  simp only [fits, capped, if_false, expected, below, frameAt_take, ownSeq,
    ne_eq, not_true, buildNonce_eq, sameKey, sameDir]
  rw [show bigEndian 4 dir.tag ++ bigEndian seqLength (start + index) =
    frameNonce dir (start + index) from rfl, opened]
  simp only [counted, if_false]

end Motrix.Bridge

/-!
# Delivery over an adversarial network

Runs of one sealer, its peer opener and a network that may deliver any bytes
in any order.  `received` is what the network did, not what the opener did: it
counts the sealer's frames that have been delivered in order so far.
-/

namespace Motrix.Bridge

open Motrix.Lib

structure Channel where
  sealer : EnvelopeSealer
  opener : EnvelopeOpener
  ledger : List Sealing
  /-- Plaintexts sealed so far. -/
  sealed : List Bytes
  /-- Frames the sealer emitted for them. -/
  emitted : List Bytes
  /-- Plaintexts the opener returned. -/
  output : List Bytes
  received : Nat

inductive ChannelEvent where
  | sealPlaintext (plaintext : Bytes)
  | deliverFrame (frame : Bytes)

namespace Channel

/-- Both ends start from the same counters. -/
def start (key : Bytes) (dir : EnvelopeDirection)
    (startSeq startBlockCount : Nat) : Channel :=
  { sealer :=
      { key := key
        dir := dir
        seq := startSeq
        blockCount := startBlockCount }
    opener :=
      { key := key
        dir := dir
        seq := startSeq
        blockCount := startBlockCount }
    ledger := []
    sealed := []
    emitted := []
    output := []
    received := 0 }

def step (aead : Aead) (channel : Channel) : ChannelEvent → Channel
  | .sealPlaintext plaintext =>
      match channel.sealer.seal aead plaintext with
      | (.error _, sealer) => { channel with sealer := sealer }
      | (.ok sealedFrame, sealer) =>
          { channel with
            sealer := sealer
            ledger := channel.ledger ++ [sealedFrame.sealing]
            sealed := channel.sealed ++ [plaintext]
            emitted := channel.emitted ++ [sealedFrame.frame] }
  | .deliverFrame frame =>
      let received :=
        if channel.emitted[channel.received]? = some frame then
          channel.received + 1
        else channel.received
      match channel.opener.openFrame channel.ledger frame with
      | (.error _, opener) =>
          { channel with opener := opener, received := received }
      | (.ok plaintext, opener) =>
          { channel with
            opener := opener
            output := channel.output ++ [plaintext]
            received := received }

def run (aead : Aead) (channel : Channel) (events : List ChannelEvent) :
    Channel :=
  events.foldl (step aead) channel

/-- Every frame emitted so far has arrived, in order. -/
def NoFrameLost (channel : Channel) : Prop :=
  channel.received = channel.emitted.length

/-- The state is a function of the sealed plaintexts and of how many of their
frames have arrived. -/
structure Lockstep (aead : Aead) (key : Bytes) (dir : EnvelopeDirection)
    (startSeq startBlockCount : Nat) (channel : Channel) : Prop where
  within : WithinFrames startSeq channel.sealed
  short : ∀ plaintext ∈ channel.sealed,
    plaintext.length ≤ maxEnvelopePlaintextBytes
  blocks : channel.sealed ≠ [] →
    startBlockCount + blocksOf channel.sealed ≤ maxEnvelopeBlocks
  received_le : channel.received ≤ channel.sealed.length
  sealer : channel.sealer =
    { key := key
      dir := dir
      seq := startSeq + channel.sealed.length
      blockCount := startBlockCount + blocksOf channel.sealed }
  opener : channel.opener =
    { key := key
      dir := dir
      seq := startSeq + channel.received
      blockCount := startBlockCount +
        blocksOf (channel.sealed.take channel.received) }
  ledger : channel.ledger =
    transcriptSealings aead key dir startSeq channel.sealed
  emitted : channel.emitted =
    transcriptFrames aead key dir startSeq channel.sealed
  output : channel.output = channel.sealed.take channel.received

variable {aead : Aead} {key : Bytes} {dir : EnvelopeDirection}
  {startSeq startBlockCount : Nat} {channel : Channel}

theorem start_lockstep :
    Lockstep aead key dir startSeq startBlockCount
      (start key dir startSeq startBlockCount) where
  within := .inr rfl
  short := by simp [start]
  blocks := by simp [start]
  received_le := by simp [start]
  sealer := by simp [start, blocksOf]
  opener := by simp [start, blocksOf]
  ledger := by simp [start, transcriptSealings]
  emitted := by simp [start, transcriptFrames]
  output := by simp [start]

theorem blocksOf_append (first second : List Bytes) :
    blocksOf (first ++ second) = blocksOf first + blocksOf second := by
  simp [blocksOf]

theorem Lockstep.seal
    (lockstep : Lockstep aead key dir startSeq startBlockCount channel)
    (plaintext : Bytes) :
    Lockstep aead key dir startSeq startBlockCount
      (channel.step aead (.sealPlaintext plaintext)) := by
  obtain ⟨failure, refused⟩ | ⟨short, frames, blocks⟩ :=
    seal_cases aead channel.sealer plaintext
  · simp only [step, refused]
    exact lockstep
  · have sealed := seal_of_bounds aead _ _ short frames blocks
    simp only [lockstep.sealer] at frames blocks
    have taken : (channel.sealed ++ [plaintext]).take channel.received =
        channel.sealed.take channel.received :=
      List.take_append_of_le_length lockstep.received_le
    have size : blocksOf [plaintext] = blockCountFor plaintext.length := by
      simp [blocksOf]
    simp only [step, sealed]
    constructor
    · left
      simp only [List.length_append, List.length_singleton]
      omega
    · intro member listed
      rcases List.mem_append.mp listed with old | new
      · exact lockstep.short member old
      · rw [List.mem_singleton.mp new]
        exact short
    · intro _
      simp only [blocksOf_append, size]
      omega
    · simp only [List.length_append]
      exact Nat.le_add_right_of_le lockstep.received_le
    · simp only [lockstep.sealer, blocksOf_append, size, List.length_append,
        List.length_singleton, Nat.add_assoc]
    · rw [taken]
      exact lockstep.opener
    · simp only [lockstep.ledger, lockstep.sealer, transcriptSealings,
        List.mapIdx_concat]
    · simp only [lockstep.emitted, lockstep.sealer, transcriptFrames,
        List.mapIdx_concat]
    · rw [taken]
      exact lockstep.output

/-- The opener accepts exactly the frame the network delivers in order. -/
theorem Lockstep.openFrame
    (lockstep : Lockstep aead key dir startSeq startBlockCount channel)
    (frame : Bytes) :
    (channel.emitted[channel.received]? ≠ some frame ∧
      ∃ failure, channel.opener.openFrame channel.ledger frame =
        (.error failure, channel.opener)) ∨
    ∃ plaintext,
      channel.emitted[channel.received]? = some frame ∧
      channel.sealed[channel.received]? = some plaintext ∧
      channel.opener.openFrame channel.ledger frame =
        (.ok plaintext,
          { channel.opener with
            seq := channel.opener.seq + 1
            blockCount := channel.opener.blockCount +
              blockCountFor plaintext.length }) := by
  have openerKey : channel.opener.key = key := by rw [lockstep.opener]
  have openerDir : channel.opener.dir = dir := by rw [lockstep.opener]
  have openerSeq : channel.opener.seq = startSeq + channel.received := by
    rw [lockstep.opener]
  by_cases next : channel.emitted[channel.received]? = some frame
  · right
    rw [lockstep.emitted] at next
    simp only [transcriptFrames, List.getElem?_mapIdx,
      Option.map_eq_some_iff] at next
    obtain ⟨plaintext, present, rfl⟩ := next
    obtain ⟨bound, value⟩ := List.getElem?_eq_some_iff.mp present
    have member : plaintext ∈ channel.sealed :=
      List.mem_of_getElem? present
    refine ⟨plaintext, ?_, present, ?_⟩
    · simp only [lockstep.emitted, transcriptFrames, List.getElem?_mapIdx,
        present, Option.map_some]
    · rw [lockstep.ledger]
      refine openFrame_next lockstep.within openerKey openerDir present
        openerSeq (lockstep.short plaintext member) ?_
      have prefixed : blocksOf (channel.sealed.take (channel.received + 1)) ≤
          blocksOf channel.sealed := by
        conv_rhs => rw [← List.take_append_drop (channel.received + 1)
          channel.sealed, blocksOf_append]
        exact Nat.le_add_right _ _
      rw [List.take_add_one, present, Option.toList_some, blocksOf_append]
        at prefixed
      have total := lockstep.blocks (List.ne_nil_of_mem member)
      simp only [blocksOf, List.map_singleton, List.sum_singleton]
        at prefixed total
      simp only [lockstep.opener, blocksOf]
      omega
  · left
    refine ⟨next, ?_⟩
    obtain ⟨failure, rejected⟩ | ⟨plaintext, -, -, -, -, accepted⟩ :=
      openFrame_cases channel.ledger channel.opener frame
    · exact ⟨failure, rejected⟩
    · exfalso
      rw [lockstep.ledger] at accepted
      obtain ⟨index, -, expected, arrived⟩ :=
        openFrame_ok lockstep.within openerKey openerDir accepted
      have sameIndex : index = channel.received := by omega
      rw [sameIndex, ← lockstep.emitted] at arrived
      exact next arrived

theorem Lockstep.deliver
    (lockstep : Lockstep aead key dir startSeq startBlockCount channel)
    (frame : Bytes) :
    Lockstep aead key dir startSeq startBlockCount
      (channel.step aead (.deliverFrame frame)) := by
  obtain ⟨skipped, failure, rejected⟩ | ⟨plaintext, next, present, accepted⟩ :=
    lockstep.openFrame frame
  · simp only [step, rejected, skipped, if_false]
    exact lockstep
  · simp only [step, accepted, next, if_true]
    obtain ⟨bound, -⟩ := List.getElem?_eq_some_iff.mp present
    have extended : channel.sealed.take (channel.received + 1) =
        channel.sealed.take channel.received ++ [plaintext] := by
      rw [List.take_add_one, present, Option.toList_some]
    constructor
    · exact lockstep.within
    · exact lockstep.short
    · exact lockstep.blocks
    · exact bound
    · exact lockstep.sealer
    · simp only [extended, blocksOf_append, lockstep.opener]
      simp [blocksOf, Nat.add_assoc]
    · exact lockstep.ledger
    · exact lockstep.emitted
    · simp only [extended, lockstep.output]

theorem Lockstep.step
    (lockstep : Lockstep aead key dir startSeq startBlockCount channel)
    (event : ChannelEvent) :
    Lockstep aead key dir startSeq startBlockCount
      (channel.step aead event) := by
  cases event with
  | sealPlaintext plaintext => exact lockstep.seal plaintext
  | deliverFrame frame => exact lockstep.deliver frame

theorem run_lockstep (events : List ChannelEvent)
    (lockstep : Lockstep aead key dir startSeq startBlockCount channel) :
    Lockstep aead key dir startSeq startBlockCount
      (channel.run aead events) := by
  induction events generalizing channel with
  | nil => exact lockstep
  | cons event later induction => exact induction (lockstep.step event)

/-! ## Consequences -/

/-- A frame the opener has not yet been handed in order meets no usage
limit. -/
theorem Lockstep.index_lt_received
    (lockstep : Lockstep aead key dir startSeq startBlockCount channel)
    {index : Nat} {frame : Bytes} {failure : EnvelopeError}
    {next : EnvelopeOpener} (emitted : channel.emitted[index]? = some frame)
    (rejected : channel.opener.openFrame channel.ledger frame =
      (.error failure, next))
    (limit : failure.isLimit = true) : index < channel.received := by
  by_contra pending
  rcases Nat.eq_or_lt_of_le (Nat.le_of_not_lt pending) with current | ahead
  · obtain ⟨skipped, -⟩ | ⟨plaintext, -, -, accepted⟩ :=
      lockstep.openFrame frame
    · exact skipped (current ▸ emitted)
    · rw [accepted] at rejected
      cases (Prod.mk.inj rejected).1
  · rw [lockstep.emitted] at emitted
    simp only [transcriptFrames, List.getElem?_mapIdx,
      Option.map_eq_some_iff] at emitted
    obtain ⟨plaintext, present, rfl⟩ := emitted
    obtain ⟨bound, -⟩ := List.getElem?_eq_some_iff.mp present
    have range := lockstep.within.index_lt bound
    have inside : startSeq + channel.sealed.length ≤ maxEnvelopeFrames := by
      rcases lockstep.within with inside | none
      · exact inside
      · simp [none] at bound
    have openerSeq : channel.opener.seq = startSeq + channel.received := by
      rw [lockstep.opener]
    obtain ⟨message, outOfOrder⟩ := openFrame_outOfOrder
      channel.ledger channel.opener
      (frameAt aead key dir (startSeq + index) plaintext)
      (by omega)
      (by
        rw [frameAt_take, os2ip, ofBigEndian_bigEndian range, openerSeq]
        omega)
    rw [outOfOrder] at rejected
    cases (Prod.mk.inj rejected).1
    cases limit

theorem Lockstep.counters
    (lockstep : Lockstep aead key dir startSeq startBlockCount channel)
    (complete : channel.NoFrameLost) :
    channel.sealer.seq = channel.opener.seq ∧
      channel.sealer.blockCount = channel.opener.blockCount := by
  have all : channel.received = channel.sealed.length := by
    rw [complete, lockstep.emitted]
    simp [transcriptFrames]
  rw [lockstep.sealer, lockstep.opener, all, List.take_length]
  exact ⟨rfl, rfl⟩

theorem Lockstep.nonces_nodup
    (lockstep : Lockstep aead key dir startSeq startBlockCount channel) :
    (channel.ledger.map fun sealing =>
      (sealing.key, sealing.nonce)).Nodup := by
  rw [lockstep.ledger]
  refine List.pairwise_iff_getElem.mpr ?_
  intro left right leftBound rightBound ordered same
  simp only [transcriptSealings, List.length_map, List.length_mapIdx]
    at leftBound rightBound
  simp only [transcriptSealings, List.getElem_map, List.getElem_mapIdx,
    Prod.mk.injEq] at same
  have seqs := frameNonce_injective dir
    (lockstep.within.index_lt leftBound) (lockstep.within.index_lt rightBound)
    same.2
  omega

/-- What every run of the channel guarantees, whatever the network does. -/
theorem run_delivery (aead : Aead) (key : Bytes) (dir : EnvelopeDirection)
    (startSeq startBlockCount : Nat) (events : List ChannelEvent) :
    let channel := (start key dir startSeq startBlockCount).run aead events
    channel.output <+: channel.sealed ∧
      (∀ frame failure next,
        channel.opener.openFrame channel.ledger frame =
          (.error failure, next) →
        next = channel.opener) ∧
      (channel.NoFrameLost →
        channel.sealer.seq = channel.opener.seq ∧
          channel.sealer.blockCount = channel.opener.blockCount) ∧
      (∀ (index : Nat) frame failure next,
        channel.emitted[index]? = some frame →
        channel.opener.openFrame channel.ledger frame =
          (.error failure, next) →
        failure.isLimit = true → index < channel.received) ∧
      (channel.ledger.map fun sealing =>
        (sealing.key, sealing.nonce)).Nodup := by
  intro channel
  have lockstep : Lockstep aead key dir startSeq startBlockCount channel :=
    run_lockstep events start_lockstep
  refine ⟨?_, ?_, lockstep.counters, ?_, lockstep.nonces_nodup⟩
  · rw [lockstep.output]
    exact List.take_prefix _ _
  · intro frame failure next rejected
    obtain ⟨-, _, unchanged⟩ | ⟨_, -, -, accepted⟩ := lockstep.openFrame frame
    · rw [unchanged] at rejected
      exact (Prod.mk.inj rejected).2.symm
    · rw [accepted] at rejected
      cases (Prod.mk.inj rejected).1
  · intro index frame failure next emitted rejected limit
    exact lockstep.index_lt_received emitted rejected limit

/-! ## The last frame, delivered twice -/

/-- A cipher for examples: the ideal ledger alone carries authenticity. -/
def sampleAead : Aead where
  ciphertext := fun _ _ _ plaintext => plaintext
  authTag := fun _ _ _ _ => List.replicate tagLength 0
  ciphertext_length := fun _ _ _ _ => rfl
  authTag_length := fun _ _ _ _ => List.length_replicate

def sampleKey : Bytes := List.replicate 32 7

/-- Seal an empty plaintext and deliver its frame, `rounds` times. -/
def emptyRounds (rounds : Nat) : List ChannelEvent :=
  (List.range rounds).flatMap fun round =>
    [.sealPlaintext [],
      .deliverFrame (frameAt sampleAead sampleKey .c2s round [])]

theorem Lockstep.seal_empty
    (lockstep : Lockstep aead key dir startSeq startBlockCount channel)
    (frames : startSeq + channel.sealed.length < maxEnvelopeFrames)
    (blocks : startBlockCount + blocksOf channel.sealed ≤
      maxEnvelopeBlocks) :
    (channel.step aead (.sealPlaintext [])).sealed =
        channel.sealed ++ [[]] ∧
      (channel.step aead (.sealPlaintext [])).received = channel.received ∧
      (channel.step aead (.sealPlaintext [])).emitted = channel.emitted ++
        [frameAt aead key dir (startSeq + channel.sealed.length) []] := by
  have accepted := seal_of_bounds aead channel.sealer [] (by simp)
    (by rw [lockstep.sealer]; exact frames)
    (by rw [lockstep.sealer]; simpa [blockCountFor, blockSize] using blocks)
  simp only [Channel.step, accepted]
  simp only [lockstep.sealer, true_and]

theorem Lockstep.deliver_next
    (lockstep : Lockstep aead key dir startSeq startBlockCount channel)
    {frame : Bytes}
    (arrived : channel.emitted[channel.received]? = some frame) :
    (channel.step aead (.deliverFrame frame)).sealed = channel.sealed ∧
      (channel.step aead (.deliverFrame frame)).received =
        channel.received + 1 := by
  obtain ⟨skipped, -⟩ | ⟨plaintext, -, -, accepted⟩ := lockstep.openFrame frame
  · exact absurd arrived skipped
  · simp only [Channel.step, accepted, arrived, if_true, true_and]

theorem emptyRounds_run {rounds : Nat} (bound : rounds ≤ maxEnvelopeFrames) :
    let channel := (start sampleKey .c2s 0 0).run sampleAead
      (emptyRounds rounds)
    channel.sealed = List.replicate rounds [] ∧ channel.received = rounds := by
  induction rounds with
  | zero => exact ⟨rfl, rfl⟩
  | succ rounds induction =>
      have events : emptyRounds (rounds + 1) = emptyRounds rounds ++
          [.sealPlaintext [],
            .deliverFrame (frameAt sampleAead sampleKey .c2s rounds [])] := by
        simp [emptyRounds, List.range_succ]
      obtain ⟨sealed, received⟩ := induction (by omega)
      simp only [run] at sealed received
      simp only [run, events, List.foldl_append, List.foldl_cons,
        List.foldl_nil]
      generalize before : (emptyRounds rounds).foldl (step sampleAead)
        (start sampleKey .c2s 0 0) = channel at *
      have lockstep : Lockstep sampleAead sampleKey .c2s 0 0 channel := by
        rw [← before]
        exact run_lockstep (emptyRounds rounds) start_lockstep
      have count : channel.sealed.length = rounds := by simp [sealed]
      obtain ⟨nextSealed, nextReceived, nextEmitted⟩ := lockstep.seal_empty
        (by omega) (by simp [sealed, blocksOf, blockCountFor, blockSize])
      have emittedLength : channel.emitted.length = rounds := by
        rw [lockstep.emitted]
        simpa [transcriptFrames] using count
      have current : (channel.step sampleAead (.sealPlaintext [])).emitted[
          (channel.step sampleAead (.sealPlaintext [])).received]? =
            some (frameAt sampleAead sampleKey .c2s rounds []) := by
        rw [nextEmitted, nextReceived, received, count, Nat.zero_add,
          ← emittedLength, List.getElem?_concat_length]
      have arrived :=
        (lockstep.step (.sealPlaintext [])).deliver_next current
      rw [arrived.1, arrived.2, nextSealed, nextReceived, sealed, received]
      exact ⟨List.replicate_succ'.symm, rfl⟩

/-- After 2^24 frames with none lost, the last frame delivered a second time
is answered by the usage limit. -/
theorem duplicateAtFrameBound_limit :
    let channel := (start sampleKey .c2s 0 0).run sampleAead
      (emptyRounds maxEnvelopeFrames)
    let frame :=
      frameAt sampleAead sampleKey .c2s (maxEnvelopeFrames - 1) []
    channel.NoFrameLost ∧ frame ∈ channel.emitted ∧
      ∃ failure next,
        channel.opener.openFrame channel.ledger frame =
          (.error failure, next) ∧
        failure.isLimit = true := by
  intro channel frame
  obtain ⟨sealed, received⟩ := emptyRounds_run (Nat.le_refl maxEnvelopeFrames)
  have lockstep : Lockstep sampleAead sampleKey .c2s 0 0 channel :=
    run_lockstep (emptyRounds maxEnvelopeFrames) start_lockstep
  have emittedLength : channel.emitted.length = maxEnvelopeFrames := by
    rw [lockstep.emitted]
    simp only [transcriptFrames, List.length_mapIdx]
    rw [sealed, List.length_replicate]
  refine ⟨?_, ?_, ?_⟩
  · rw [NoFrameLost, emittedLength]
    exact received
  · rw [lockstep.emitted]
    refine List.mem_iff_getElem?.mpr ⟨maxEnvelopeFrames - 1, ?_⟩
    have present : channel.sealed[maxEnvelopeFrames - 1]? = some [] := by
      rw [sealed, List.getElem?_replicate]
      rfl
    simp only [transcriptFrames, List.getElem?_mapIdx, present,
      Option.map_some, Nat.zero_add]
    rfl
  · have openerSeq : channel.opener.seq = maxEnvelopeFrames := by
      rw [lockstep.opener]
      simpa using received
    have size : frame.length = seqLength + tagLength :=
      frameAt_length _ _ _ _ _
    have long : ¬ frame.length < seqLength + tagLength := by omega
    have small : ¬ frame.length - seqLength - tagLength >
        maxEnvelopePlaintextBytes := by
      rw [size]
      decide
    obtain ⟨message, rejected⟩ := openFrame_frameBound
      channel.ledger long small (Nat.le_of_eq openerSeq.symm)
    exact ⟨.limit message, channel.opener, rejected, rfl⟩

end Channel

end Motrix.Bridge
