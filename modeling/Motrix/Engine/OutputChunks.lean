import Motrix.Engine.ProcessOutput

/-!
# Chunks of the output

The lines of the whole output are told apart unit by unit.  However the output
is cut into chunks, the reader classifies these lines and leaves out those that
are too long.
-/

namespace Motrix.ProcessOutput

/-! ## The whole output -/

/-- The lines that are complete, and the one that is not. -/
structure Scan where
  lines : List Text := []
  line : Text := []
  previousWasCr : Bool := false

/-- A line feed behind a carriage return belongs to it. -/
def Scan.step (scan : Scan) (unit : UInt16) : Scan :=
  if unit = 0x0a && scan.previousWasCr then
    { scan with previousWasCr := false }
  else if unit = 0x0a || unit = 0x0d then
    { lines := scan.lines ++ [scan.line]
      line := []
      previousWasCr := unit == 0x0d }
  else
    { scan with
      line := scan.line ++ [unit]
      previousWasCr := unit == 0x0d }

def Scan.finish (scan : Scan) : List Text :=
  if scan.line.isEmpty then scan.lines else scan.lines ++ [scan.line]

def splitLines (decoded : Text) : List Text :=
  (decoded.foldl Scan.step {}).finish

section Lines

variable (host : Host) (redactKnownSecrets : Text → Text)
  (stream : OutputStream)

def readLine (state : LineState) (raw : Text) :
    LineState × List Aria2OutputRecord :=
  if maxLineLength < raw.length then emitOmittedLine stream state
  else emitLine host redactKnownSecrets stream state raw

def readLines : LineState → List Text → LineState × List Aria2OutputRecord
  | state, [] => (state, [])
  | state, raw :: rest =>
      let first := readLine host redactKnownSecrets stream state raw
      let others := readLines first.1 rest
      (others.1, first.2 ++ others.2)

theorem readLine_long {raw : Text} (long : maxLineLength < raw.length)
    (state : LineState) :
    readLine host redactKnownSecrets stream state raw =
      emitOmittedLine stream state :=
  if_pos long

theorem readLine_short {raw : Text} (short : ¬maxLineLength < raw.length)
    (state : LineState) :
    readLine host redactKnownSecrets stream state raw =
      emitLine host redactKnownSecrets stream state raw :=
  if_neg short

theorem readLines_append (state : LineState) (front back : List Text) :
    readLines host redactKnownSecrets stream state (front ++ back) =
      let first := readLines host redactKnownSecrets stream state front
      let others := readLines host redactKnownSecrets stream first.1 back
      (others.1, first.2 ++ others.2) := by
  induction front generalizing state with
  | nil => rfl
  | cons raw rest induction =>
      simp only [List.cons_append, readLines, induction, List.append_assoc]

end Lines

/-! ## The reader -/

namespace Aria2ProcessOutput

section Reader

variable {Held : Type} {host : Host} {redactKnownSecrets : Text → Text}
  {stream : OutputStream} {output : Aria2ProcessOutput Held}

/-- What the reader keeps of a line. -/
structure Holds (output : Aria2ProcessOutput Held) (line : Text) : Prop where
  dropping : output.droppingLine = decide (maxLineLength < line.length)
  pending : output.droppingLine = false → output.pending = line

theorem Holds.append {line : Text} (holds : Holds output line)
    (piece : Text) : Holds (output.append piece) (line ++ piece) := by
  unfold Aria2ProcessOutput.append
  cases dropping : output.droppingLine with
  | true =>
      have long := holds.dropping
      rw [dropping] at long
      have long := of_decide_eq_true long.symm
      constructor
      · rw [if_pos rfl, dropping, List.length_append]
        exact (decide_eq_true (by omega)).symm
      · intro wrong
        rw [if_pos rfl, dropping] at wrong
        cases wrong
  | false =>
      have same := holds.pending dropping
      rw [if_neg Bool.false_ne_true, same, ← List.length_append]
      split
      · next long =>
          constructor
          · exact (decide_eq_true long).symm
          · intro wrong
            cases wrong
      · next short =>
          constructor
          · exact (decide_eq_false short).symm
          · intro _
            rfl

theorem append_kept (output : Aria2ProcessOutput Held) (piece : Text) :
    let after := output.append piece
    after.decoder = output.decoder ∧ after.ended = output.ended ∧
      after.previousWasCr = output.previousWasCr ∧
      after.lineState = output.lineState ∧ after.records = output.records := by
  unfold Aria2ProcessOutput.append
  split
  · exact ⟨rfl, rfl, rfl, rfl, rfl⟩
  · split
    · exact ⟨rfl, rfl, rfl, rfl, rfl⟩
    · exact ⟨rfl, rfl, rfl, rfl, rfl⟩

/-- The reader has read the lines of the scan, and holds its last one. -/
structure Represents (host : Host) (redactKnownSecrets : Text → Text)
    (stream : OutputStream) (output : Aria2ProcessOutput Held)
    (scan : Scan) : Prop where
  holds : Holds output scan.line
  previousWasCr : output.previousWasCr = scan.previousWasCr
  read : (output.lineState, output.records) =
    readLines host redactKnownSecrets stream {} scan.lines

theorem readLines_concat (lines : List Text) (raw : Text) :
    readLines host redactKnownSecrets stream {} (lines ++ [raw]) =
      let read := readLines host redactKnownSecrets stream {} lines
      let last := readLine host redactKnownSecrets stream read.1 raw
      (last.1, read.2 ++ last.2) := by
  rw [readLines_append]
  simp [readLines]

/-- A whole line is read as one. -/
theorem Represents.endLine {scan : Scan}
    (represents : Represents host redactKnownSecrets stream output scan) :
    Represents host redactKnownSecrets stream
      (output.endLine host redactKnownSecrets stream)
      { scan with
        lines := scan.lines ++ [scan.line]
        line := [] } := by
  obtain ⟨⟨long, pending⟩, previousWasCr, read⟩ := represents
  obtain ⟨state, records⟩ := Prod.mk.inj read
  unfold Aria2ProcessOutput.endLine
  cases dropping : output.droppingLine with
  | true =>
      rw [dropping] at long
      constructor
      · exact ⟨rfl, fun _ => rfl⟩
      · exact previousWasCr
      · rw [readLines_concat]
        dsimp only
        rw [readLine_long _ _ _ (of_decide_eq_true long.symm), ← state,
          ← records]
        rfl
  | false =>
      rw [dropping] at long
      constructor
      · exact ⟨rfl, fun _ => rfl⟩
      · exact previousWasCr
      · rw [readLines_concat]
        dsimp only
        rw [readLine_short _ _ _ (of_decide_eq_false long.symm), ← state,
          ← records, ← pending dropping]
        rfl

theorem consumeLoop_represents (decoded : Text)
    (output : Aria2ProcessOutput Held) (scan : Scan) (line piece : Text)
    (holds : Holds output line) (parts : scan.line = line ++ piece)
    (previous : output.previousWasCr = scan.previousWasCr)
    (started : scan.previousWasCr = true → piece = [])
    (read : (output.lineState, output.records) =
      readLines host redactKnownSecrets stream {} scan.lines) :
    Represents host redactKnownSecrets stream
      (output.consumeLoop host redactKnownSecrets stream piece decoded)
      (decoded.foldl Scan.step scan) := by
  induction decoded generalizing output scan line piece with
  | nil =>
      obtain ⟨-, -, cr, state, records⟩ := output.append_kept piece
      constructor
      · rw [List.foldl_nil, parts]
        exact holds.append piece
      · exact cr.trans previous
      · refine Eq.trans ?_ read
        exact Prod.ext state records
  | cons unit rest induction =>
      rw [List.foldl_cons, consumeLoop, Scan.step, previous]
      split
      · next skipped =>
          have none : piece = [] := started (by
            simp only [Bool.and_eq_true] at skipped
            exact skipped.2)
          rw [none, List.append_nil] at parts
          exact induction _ _ line [] ⟨holds.dropping, holds.pending⟩
            (by rw [List.append_nil]; exact parts) rfl
            (fun _ => rfl) read
      · next unskipped =>
          dsimp only
          split
          · next separator =>
              have marked : Holds
                  { output with previousWasCr := unit == 0x0d } line :=
                ⟨holds.dropping, holds.pending⟩
              obtain ⟨-, -, cr, state, records⟩ := append_kept
                { output with previousWasCr := unit == 0x0d } piece
              have whole : Represents host redactKnownSecrets stream
                  (({ output with
                    previousWasCr := unit == 0x0d }).append piece)
                  { scan with previousWasCr := unit == 0x0d } := by
                constructor
                · rw [parts]
                  exact marked.append piece
                · exact cr
                · rw [state, records]
                  exact read
              have ended := whole.endLine
              exact induction _ _ [] [] ended.holds rfl ended.previousWasCr
                (fun _ => rfl) ended.read
          · next inside =>
              have noReturn : (unit == 0x0d) = false := by
                simp only [Bool.or_eq_true, not_or] at inside
                simpa using inside.2
              have longer : scan.line ++ [unit] =
                  line ++ (piece ++ [unit]) := by
                rw [parts, List.append_assoc]
              have unmarked : (unit == 0x0d) = true →
                  piece ++ [unit] = [] := by
                intro wrong
                rw [noReturn] at wrong
                cases wrong
              exact induction _ _ line (piece ++ [unit])
                ⟨holds.dropping, holds.pending⟩ longer rfl unmarked read

theorem consume_represents {scan : Scan}
    (represents : Represents host redactKnownSecrets stream output scan)
    (decoded : Text) :
    Represents host redactKnownSecrets stream
      (output.consume host redactKnownSecrets stream decoded)
      (decoded.foldl Scan.step scan) := by
  exact consumeLoop_represents decoded output scan scan.line []
    represents.holds (List.append_nil _).symm represents.previousWasCr
    (fun _ => rfl) represents.read

theorem consumeLoop_kept (decoded : Text) (output : Aria2ProcessOutput Held)
    (piece : Text) :
    let after := output.consumeLoop host redactKnownSecrets stream piece decoded
    after.decoder = output.decoder ∧ after.ended = output.ended := by
  induction decoded generalizing output piece with
  | nil =>
      obtain ⟨decoder, ended, -⟩ := output.append_kept piece
      exact ⟨decoder, ended⟩
  | cons unit rest induction =>
      simp only [consumeLoop]
      split
      · exact induction _ _
      · split
        · obtain ⟨decoder, ended, -⟩ := append_kept
            { output with previousWasCr := unit == 0x0d } piece
          obtain ⟨first, second⟩ := induction
            ((({ output with
              previousWasCr := unit == 0x0d }).append piece).endLine host
                redactKnownSecrets stream) []
          rw [first, second]
          unfold endLine
          split
          · exact ⟨decoder, ended⟩
          · exact ⟨decoder, ended⟩
        · exact induction _ _

end Reader

end Aria2ProcessOutput

/-! ## Chunks -/

/-- All that is decoded of the chunks that are left. -/
def StringDecoder.decode {Held : Type} (decoding : StringDecoder Held) :
    Held → List (List UInt8) → Text
  | held, [] => decoding.finish held
  | held, chunk :: rest =>
      (decoding.write held chunk).1 ++
        decoding.decode (decoding.write held chunk).2 rest

/-- The text depends on the bytes only. -/
def StringDecoder.ChunkInvariant {Held : Type}
    (decoding : StringDecoder Held) : Prop :=
  ∀ chunks others : List (List UInt8), chunks.flatten = others.flatten →
    decoding.decode decoding.initial chunks =
      decoding.decode decoding.initial others

namespace Aria2ProcessOutput

variable {Held : Type}

/-- The line that is not complete is read at the end. -/
theorem flush_records {host : Host} {redactKnownSecrets : Text → Text}
    {stream : OutputStream} {last : Aria2ProcessOutput Held} {scan : Scan}
    (represents : Represents host redactKnownSecrets stream last scan) :
    (if last.droppingLine then
        last.emit (emitOmittedLine stream last.lineState)
      else if last.pending.isEmpty then last
      else
        last.emit (emitLine host redactKnownSecrets stream last.lineState
          last.pending)).records =
      (readLines host redactKnownSecrets stream {} scan.finish).2 := by
  obtain ⟨⟨long, pending⟩, -, read⟩ := represents
  obtain ⟨state, records⟩ := Prod.mk.inj read
  unfold Scan.finish
  cases dropping : last.droppingLine with
  | true =>
      rw [dropping] at long
      have long := of_decide_eq_true long.symm
      have filled : scan.line.isEmpty = false := by
        cases line : scan.line with
        | nil => simp [line] at long
        | cons unit rest => rfl
      rw [filled, if_neg Bool.false_ne_true, readLines_concat]
      dsimp only
      rw [readLine_long _ _ _ long, ← state, ← records]
      rfl
  | false =>
      rw [dropping] at long
      rw [pending dropping]
      cases empty : scan.line.isEmpty with
      | true => exact records
      | false =>
          rw [if_neg Bool.false_ne_true, if_neg Bool.false_ne_true,
            if_neg Bool.false_ne_true, readLines_concat]
          dsimp only
          rw [readLine_short _ _ _ (of_decide_eq_false long.symm), ← state,
            ← records]
          rfl

theorem finish_records (host : Host) (redactKnownSecrets : Text → Text)
    (stream : OutputStream) (decoding : StringDecoder Held)
    (chunks : List (List UInt8)) (output : Aria2ProcessOutput Held)
    (scan : Scan) (running : output.ended = false)
    (represents : Represents host redactKnownSecrets stream output scan) :
    (finish host redactKnownSecrets stream decoding
        (chunks.foldl (write host redactKnownSecrets stream decoding)
          output)).records =
      (readLines host redactKnownSecrets stream {}
        ((decoding.decode output.decoder chunks).foldl Scan.step
          scan).finish).2 := by
  induction chunks generalizing output scan with
  | nil =>
      have last : Represents host redactKnownSecrets stream
          { output with ended := true } scan :=
        ⟨⟨represents.holds.dropping, represents.holds.pending⟩,
          represents.previousWasCr, represents.read⟩
      simp only [List.foldl_nil, finish, running, Bool.false_eq_true,
        if_false, StringDecoder.decode]
      exact flush_records (consume_represents last _)
  | cons chunk rest induction =>
      have next : Represents host redactKnownSecrets stream
          { output with decoder := (decoding.write output.decoder chunk).2 }
          scan :=
        ⟨⟨represents.holds.dropping, represents.holds.pending⟩,
          represents.previousWasCr, represents.read⟩
      have consumed := consume_represents next
        (decoding.write output.decoder chunk).1
      have kept : (consume host redactKnownSecrets stream
            { output with decoder := (decoding.write output.decoder chunk).2 }
            (decoding.write output.decoder chunk).1).decoder =
              (decoding.write output.decoder chunk).2 ∧
          (consume host redactKnownSecrets stream
            { output with decoder := (decoding.write output.decoder chunk).2 }
            (decoding.write output.decoder chunk).1).ended = output.ended :=
        consumeLoop_kept _ _ _
      have written : output.write host redactKnownSecrets stream decoding
          chunk =
          consume host redactKnownSecrets stream
            { output with decoder := (decoding.write output.decoder chunk).2 }
            (decoding.write output.decoder chunk).1 := by
        simp only [write, running, Bool.false_eq_true, if_false]
      rw [List.foldl_cons, written, StringDecoder.decode, List.foldl_append,
        induction _ _ (kept.2.trans running) consumed, kept.1]

/-- The records are those of the lines of the whole output. -/
theorem read_records (host : Host) (redactKnownSecrets : Text → Text)
    (stream : OutputStream) (decoding : StringDecoder Held)
    (chunks : List (List UInt8)) :
    (read host redactKnownSecrets stream decoding chunks).records =
      (readLines host redactKnownSecrets stream {}
        (splitLines (decoding.decode decoding.initial chunks))).2 := by
  have initial : Represents host redactKnownSecrets stream
      ({ decoder := decoding.initial } : Aria2ProcessOutput Held) {} :=
    ⟨⟨rfl, fun _ => rfl⟩, rfl, rfl⟩
  exact finish_records host redactKnownSecrets stream decoding chunks _ {} rfl
    initial

/-- However the same bytes are cut into chunks, the same records are emitted,
and they are those of the lines of the whole output. -/
theorem read_chunks (host : Host) (redactKnownSecrets : Text → Text)
    (stream : OutputStream) (decoding : StringDecoder Held)
    (invariant : decoding.ChunkInvariant) (chunks others : List (List UInt8))
    (same : chunks.flatten = others.flatten) :
    (read host redactKnownSecrets stream decoding chunks).records =
        (read host redactKnownSecrets stream decoding others).records ∧
      (read host redactKnownSecrets stream decoding chunks).records =
        (readLines host redactKnownSecrets stream {}
          (splitLines (decoding.decode decoding.initial others))).2 := by
  have text := invariant chunks others same
  rw [read_records, read_records, text]
  exact ⟨rfl, rfl⟩

/-- Every byte is a unit of its own, as for ASCII. -/
def plainDecoder : StringDecoder Unit where
  initial := ()
  write _ chunk := (chunk.map fun byte => byte.toUInt16, ())
  finish _ := []

theorem plainDecoder_chunkInvariant : plainDecoder.ChunkInvariant := by
  have whole : ∀ (chunks : List (List UInt8)) (held : Unit),
      plainDecoder.decode held chunks =
        chunks.flatten.map fun byte => byte.toUInt16 := by
    intro chunks
    induction chunks with
    | nil => exact fun _ => rfl
    | cons chunk rest induction =>
        intro held
        rw [StringDecoder.decode, induction, List.flatten_cons,
          List.map_append]
        rfl
  intro chunks others same
  rw [whole, whole, same]

/-- A carriage return, its line feed and a line cut into chunks. -/
theorem read_chunks_cut :
    (read ⟨id, id⟩ id .stdout plainDecoder
        [[0x61, 0x0d], [0x0a, 0x62], [0x63]]).records =
      (read ⟨id, id⟩ id .stdout plainDecoder
        [[0x61, 0x0d, 0x0a, 0x62, 0x63]]).records :=
  (read_chunks ⟨id, id⟩ id .stdout plainDecoder plainDecoder_chunkInvariant
    [[0x61, 0x0d], [0x0a, 0x62], [0x63]] [[0x61, 0x0d, 0x0a, 0x62, 0x63]]
    rfl).1

end Aria2ProcessOutput

end Motrix.ProcessOutput
