import Motrix.Media.DashParser

/-!
# When the segments of a template are finitely many

The loops over the segments count with numbers that are exact up to 2^53.  They
end where their bounds are below that, or where an address on the way is
refused.
-/

namespace Motrix.Media.Dash

open Motrix.Lib Motrix.Lib.CountedLoop

variable {host : Host} {template : Template}

/-! ## The places of segments -/

/-- The time and the number of a segment. -/
abbrev Place := Float × Float

def nextPlace (d : Float) (place : Place) : Place :=
  (place.1 + d, place.2 + 1)

def Refused (host : Host) (template : Template) (place : Place) : Prop :=
  ∃ failure, segmentUrl host template place.2 place.1 = .error failure

/-- An entry whose rounds are bounded leads to the next entries, unless an
address of it is refused. -/
def EntriesEnd (host : Host) (template : Template)
    (periodDurationSec : Option Float) (timescale : Float) :
    List SEntry → Place → Prop
  | [], _ => True
  | entry :: rest, place =>
      let start : Place := (entry.t.getD place.1, place.2)
      let bound := countTo (repetitions periodDurationSec timescale entry
        (rest.head?.bind SEntry.t) start.1)
      (¬ Within maxExact bound ∧
          ∃ round, Refused host template ((nextPlace entry.d)^[round] start)) ∨
        ∃ rounds, bound = some rounds ∧ rounds ≤ maxExact ∧
          ((∃ round < rounds,
              Refused host template ((nextPlace entry.d)^[round] start)) ∨
            EntriesEnd host template periodDurationSec timescale rest
              ((nextPlace entry.d)^[rounds] start))

/-- The number and the time of a segment of a template with a duration. -/
def numberedPlace (startNumber duration : Float) (i : Nat) : Place :=
  (Float.ofNat i * duration, startNumber + Float.ofNat i)

/-- The count of the segments is bounded, or an address is refused. -/
def DurationEnds (host : Host) (template : Template)
    (attrs : SegmentTemplateAttrs) (periodDurationSec duration : Float) :
    Prop :=
  Within maxExact
      (countBelow (mathCeil (periodDurationSec * attrs.timescale / duration))) ∨
    ∃ round, Refused host template
      (numberedPlace attrs.startNumber duration ((count maxExact)^[round] 0))

def SegmentsEnd (host : Host) (template : Template)
    (attrs : SegmentTemplateAttrs) (templateBody : Text)
    (periodDurationSec : Option Float) : Prop :=
  match firstElement "SegmentTimeline" templateBody, attrs.duration,
      periodDurationSec with
  | some timeline, _, _ =>
      EntriesEnd host template periodDurationSec attrs.timescale
        (parseSegmentTimeline timeline.body) (0, attrs.startNumber)
  | none, some duration, some periodDurationSec =>
      DurationEnds host template attrs periodDurationSec duration
  | none, _, _ => True

/-! ## The loops -/

def Expansion.place (state : Expansion) : Place :=
  (state.time, state.seq)

theorem expandRound_ok {d : Float} {state next : Expansion}
    (done : expandRound host template d state = .ok next) :
    ¬ Refused host template state.place ∧
      next.place = nextPlace d state.place ∧
      next.j = count maxExact state.j := by
  unfold expandRound at done
  cases read : segmentUrl host template state.seq state.time with
  | error failure =>
      rw [read] at done
      cases done
  | ok url =>
      rw [read] at done
      cases done
      refine ⟨?_, rfl, rfl⟩
      rintro ⟨failure, failed⟩
      cases read.symm.trans failed

theorem expandRound_error {d : Float} {state : Expansion}
    {failure : ParseFailure}
    (failed : expandRound host template d state = .error failure) :
    Refused host template state.place := by
  unfold expandRound at failed
  cases read : segmentUrl host template state.seq state.time with
  | error other => exact ⟨other, read⟩
  | ok url =>
      rw [read] at failed
      cases failed

theorem expandRound_counts (bound : Option Nat) (d : Float) :
    Counts maxExact bound (fun state => below bound state.j)
      (expandRound host template d) Expansion.j where
  tests _ := rfl
  counts _ _ done := (expandRound_ok done).2.2

theorem expandRound_follows (d : Float) :
    Follows (expandRound host template d) Expansion.place (nextPlace d)
      (Refused host template) where
  fails _ _ failed := expandRound_error failed
  moves _ _ done := ⟨(expandRound_ok done).1, (expandRound_ok done).2.1⟩

/-- The number of a segment is its place among the rounds. -/
theorem numberRound_ok {startNumber duration : Float} {state next : Numbering}
    (done : numberRound host template startNumber duration state = .ok next) :
    ¬ Refused host template (numberedPlace startNumber duration state.i) ∧
      next.i = count maxExact state.i := by
  unfold numberRound at done
  dsimp only at done
  cases read : segmentUrl host template (startNumber + Float.ofNat state.i)
      (Float.ofNat state.i * duration) with
  | error failure =>
      rw [read] at done
      cases done
  | ok url =>
      rw [read] at done
      cases done
      refine ⟨?_, rfl⟩
      rintro ⟨failure, failed⟩
      cases read.symm.trans failed

theorem numberRound_error {startNumber duration : Float} {state : Numbering}
    {failure : ParseFailure}
    (failed :
      numberRound host template startNumber duration state = .error failure) :
    Refused host template (numberedPlace startNumber duration state.i) := by
  unfold numberRound at failed
  dsimp only at failed
  cases read : segmentUrl host template (startNumber + Float.ofNat state.i)
      (Float.ofNat state.i * duration) with
  | error other => exact ⟨other, read⟩
  | ok url =>
      rw [read] at failed
      cases failed

theorem numberRound_counts (bound : Option Nat) (startNumber duration : Float) :
    Counts maxExact bound (fun state => below bound state.i)
      (numberRound host template startNumber duration) Numbering.i where
  tests _ := rfl
  counts _ _ done := (numberRound_ok done).2

theorem numberRound_follows (startNumber duration : Float) :
    Follows (numberRound host template startNumber duration) Numbering.i
      (count maxExact)
      (fun i => Refused host template
        (numberedPlace startNumber duration i)) where
  fails _ _ failed := numberRound_error failed
  moves _ _ done := numberRound_ok done

/-! ## Timelines -/

variable {periodDurationSec : Option Float} {timescale : Float}

/-- One entry at a time: its loop and the entries behind it. -/
theorem expandEntries_ends_iff (entries : List SEntry) (state : Expansion) :
    (expandEntries host periodDurationSec timescale template entries
        state).Ends ↔
      EntriesEnd host template periodDurationSec timescale entries
        state.place := by
  induction entries generalizing state with
  | nil => exact ⟨fun _ => trivial, fun _ => Run.ends_pure state⟩
  | cons entry rest induction =>
      exact (expandRound_follows entry.d).ends_bind_iff
        (expandRound_counts _ entry.d) rfl _ _ induction

theorem expandTimeline_ends_iff (entries : List SEntry) (startNumber : Float) :
    (expandTimeline host entries periodDurationSec timescale startNumber
        template).Ends ↔
      EntriesEnd host template periodDurationSec timescale entries
        (0, startNumber) := by
  unfold expandTimeline
  rw [Run.ends_bind_pure_iff]
  exact expandEntries_ends_iff entries _

theorem expandDuration_ends_iff (seconds duration : Float)
    (attrs : SegmentTemplateAttrs) :
    (expandDuration host seconds duration attrs template).Ends ↔
      DurationEnds host template attrs seconds duration := by
  exact (numberRound_follows attrs.startNumber duration).ends_bind_pure_iff
    (numberRound_counts _ _ _) rfl Numbering.segments

theorem templateSegments_ends_iff (attrs : SegmentTemplateAttrs)
    (templateBody : Text) :
    (templateSegments host attrs template templateBody
        periodDurationSec).Ends ↔
      SegmentsEnd host template attrs templateBody periodDurationSec := by
  unfold templateSegments SegmentsEnd
  cases firstElement "SegmentTimeline" templateBody with
  | some timeline => exact expandTimeline_ends_iff _ _
  | none =>
      cases attrs.duration with
      | none => exact iff_true_intro (Run.ends_pure [])
      | some duration =>
          cases periodDurationSec with
          | none => exact iff_true_intro (Run.ends_pure [])
          | some seconds => exact expandDuration_ends_iff _ _ _

/-- The expansion of a template ends exactly if the address of its
initialization is refused, or its repetitions and its count of segments are at
most 2^53 up to where an address is refused. -/
theorem buildSegmentTemplatePlan_ends_iff (host : Host)
    (templateTag templateBody : Text) (rep : RepInfo) (base : Text)
    (periodDurationSec : Option Float) :
    (buildSegmentTemplatePlan host templateTag templateBody rep base
        periodDurationSec).Ends ↔
      ∀ init,
        templateInit host (parseSegmentTemplateAttrs templateTag)
          (templateOf (parseSegmentTemplateAttrs templateTag) rep base) =
            .ok init →
        SegmentsEnd host
          (templateOf (parseSegmentTemplateAttrs templateTag) rep base)
          (parseSegmentTemplateAttrs templateTag) templateBody
          periodDurationSec := by
  unfold buildSegmentTemplatePlan
  rw [Run.ends_lift_bind_iff]
  apply forall_congr'
  intro init
  apply imp_congr_right
  intro _
  rw [Run.ends_bind_pure_iff]
  exact templateSegments_ends_iff _ _

/-! ## A template without end -/

/-- References are appended to a base that ends with a slash. -/
def appending : Host where
  resolveUri base reference := .ok (base ++ reference)
  numberText _ := ['1']
  stringLimit := 2 ^ 29 - 24

def openTag : Text :=
  "<SegmentTemplate media=\"s.m4s\">".toList

/-- An entry without duration that repeats until the end of the period. -/
def openTimeline : Text :=
  "<SegmentTimeline><S r=\"-1\"/></SegmentTimeline>".toList

def plainRep : RepInfo where
  id := "v".toList
  bandwidth := 1
  attrs := " id=\"v\" bandwidth=\"1\"".toList
  body := []

theorem openTimeline_unended :
    ¬ (buildSegmentTemplatePlan appending openTag openTimeline plainRep
        "https://h/".toList (some 10)).Ends := by
  have attrs : parseSegmentTemplateAttrs openTag =
      { timescale := 1
        startNumber := 1
        duration := none
        initialization := none
        media := "s.m4s".toList } := by
    decide +kernel
  have timeline : firstElement "SegmentTimeline" openTimeline =
      some ⟨[], "<S r=\"-1\"/>".toList⟩ := by
    decide +kernel
  have entries : parseSegmentTimeline "<S r=\"-1\"/>".toList =
      [{ t := none, d := 0, r := -1 }] := by
    decide +kernel
  have endless : countTo (repetitions (some 10) 1
      { t := none, d := 0, r := -1 } none 0) = none := by
    decide +kernel
  rw [buildSegmentTemplatePlan_ends_iff, attrs]
  intro ends
  have ended := ends none rfl
  unfold SegmentsEnd at ended
  rw [timeline] at ended
  dsimp only at ended
  rw [entries] at ended
  rcases ended with ⟨-, round, failure, failed⟩ | ⟨rounds, bounded, -⟩
  · cases failed
  · cases endless.symm.trans bounded

end Motrix.Media.Dash
