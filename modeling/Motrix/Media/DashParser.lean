import Motrix.Lib.CountedLoop
import Motrix.Media.DashText

/-!
# Segment templates

From the template of a representation to the plan of its segments.  Resolving
a URI, which may throw, the text of a number and the length of the longest
string are the host's.
-/

namespace Motrix.Media.Dash

open Motrix.Lib Motrix.Lib.CountedLoop

structure Host where
  resolveUri : Text → Text → Except ParseFailure Text
  numberText : Float → Text
  stringLimit : Nat

structure ByteRange where
  offset : Float
  length : Float

structure InitSegment where
  url : Text
  byteRange : Option ByteRange

structure MediaPart where
  url : Text
  index : Nat
  byteRange : Option ByteRange

inductive Container where
  | fmp4
  | single
  deriving DecidableEq, Repr

structure SegmentPlan where
  container : Container
  init : Option InitSegment
  segments : List MediaPart
  isComplete : Bool

structure RepInfo where
  id : Text
  bandwidth : Float
  attrs : Text
  body : Text

variable (host : Host)

/-! ## URI templates -/

structure TemplateValues where
  id : Text
  number : Float
  bandwidth : Float
  time : Float

def templateTokens : List String :=
  ["RepresentationID", "Number", "Bandwidth", "Time", "SubNumber"]

/-- `(?:%0(\d+)([diouxX]))?` -/
def readWidth (text : Text) : Option Text × Text :=
  match text with
  | '%' :: '0' :: more =>
      match more.takeWhile Char.isDigit, more.dropWhile Char.isDigit with
      | first :: digits, mark :: rest =>
          if "diouxX".toList.contains mark then (some (first :: digits), rest)
          else (none, text)
      | _, _ => (none, text)
  | _ => (none, text)

def templateValue (values : TemplateValues) (token : String) : Float :=
  if token = "Number" ∨ token = "SubNumber" then values.number
  else if token = "Bandwidth" then values.bandwidth
  else values.time

def padStart (text width : Text) : Text :=
  List.replicate (decimalValue width - text.length) '0' ++ text

/-- A placeholder with the text for it, and what follows. -/
def readPlaceholder (values : TemplateValues) (text : Text) :
    Option (Text × Text) :=
  match text with
  | '$' :: rest =>
      let token := templateTokens.find? fun token =>
        token.toList.isPrefixOf rest
      let rest := rest.drop ((token.map (·.toList.length)).getD 0)
      match readWidth rest with
      | (width, '$' :: rest) =>
          let printed :=
            match token with
            | none => ['$']
            | some "RepresentationID" => values.id
            | some token =>
                let value := host.numberText (templateValue values token)
                (width.map (padStart value)).getD value
          some (printed, rest)
      | _ => none
  | _ => none

def replaceWithin (values : TemplateValues) : Nat → Text → Text
  | 0, _ => []
  | fuel + 1, text =>
      match readPlaceholder host values text with
      | some (printed, rest) => printed ++ replaceWithin values fuel rest
      | none =>
          match text with
          | [] => []
          | character :: rest => character :: replaceWithin values fuel rest

def fillUriTemplate (template : Text) (values : TemplateValues) :
    Except ParseFailure Text :=
  let filled := replaceWithin host values (template.length + 1) template
  if filled.length ≤ host.stringLimit then .ok filled
  else .error (.thrown "Invalid string length")

/-! ## Segment templates -/

structure SegmentTemplateAttrs where
  timescale : Float
  startNumber : Float
  duration : Option Float
  initialization : Option Text
  media : Text
  deriving DecidableEq

def parseSegmentTemplateAttrs (tag : Text) : SegmentTemplateAttrs where
  timescale := toNumber ((attrVal tag "timescale").getD "1".toList)
  startNumber := toNumber ((attrVal tag "startNumber").getD "1".toList)
  duration := (attrVal tag "duration").map toNumber
  initialization := attrVal tag "initialization"
  media := (attrVal tag "media").getD []

structure SEntry where
  t : Option Float
  d : Float
  r : Float
  deriving DecidableEq

def parseSegmentTimeline (timelineBody : Text) : List SEntry :=
  (matchAll (readTag "S") timelineBody).map fun attrs =>
    { t := (attrVal attrs "t").map toNumber
      d := toNumber ((attrVal attrs "d").getD "0".toList)
      r := toNumber ((attrVal attrs "r").getD "0".toList) }

/-- What the segments of a template have in common. -/
structure Template where
  media : Text
  id : Text
  bandwidth : Float
  base : Text

def segmentUrl (template : Template) (number time : Float) :
    Except ParseFailure Text :=
  (fillUriTemplate host template.media
    { id := template.id
      number := number
      bandwidth := template.bandwidth
      time := time }).bind fun filled =>
    host.resolveUri template.base filled

/-- `reps` of an entry that starts at the time. -/
def repetitions (periodDurationSec : Option Float) (timescale : Float)
    (entry : SEntry) (nextT : Option Float) (time : Float) : Float :=
  if 0 ≤ entry.r then
    entry.r
  else
    let reps :=
      match nextT, periodDurationSec with
      | some nextT, _ => mathRound ((nextT - time) / entry.d) - 1
      | none, some periodDurationSec =>
          let periodEndTs := mathRound (periodDurationSec * timescale)
          mathRound ((periodEndTs - time) / entry.d) - 1
      | none, none => 0
    if reps < 0 then 0 else reps

structure Expansion where
  time : Float
  seq : Float
  parts : List MediaPart
  j : Nat

def expandRound (template : Template) (d : Float) (state : Expansion) :
    Except ParseFailure Expansion :=
  (segmentUrl host template state.seq state.time).map fun url =>
    { time := state.time + d
      seq := state.seq + 1
      parts := state.parts ++
        [{ url := url, index := state.parts.length, byteRange := none }]
      j := count maxExact state.j }

def expandEntries (periodDurationSec : Option Float) (timescale : Float)
    (template : Template) :
    List SEntry → Expansion → Run ParseFailure Expansion
  | [], state => pure state
  | entry :: rest, state => do
      let time := entry.t.getD state.time
      let reps := repetitions periodDurationSec timescale entry
        (rest.head?.bind SEntry.t) time
      let expanded ← loop (fun state => below (countTo reps) state.j)
        (expandRound host template entry.d)
        { state with
          time := time
          j := 0 }
      expandEntries periodDurationSec timescale template rest expanded

def expandTimeline (entries : List SEntry) (periodDurationSec : Option Float)
    (timescale startNumber : Float) (template : Template) :
    Run ParseFailure (List MediaPart) := do
  let expanded ← expandEntries host periodDurationSec timescale template
    entries
    { time := 0
      seq := startNumber
      parts := []
      j := 0 }
  pure expanded.parts

structure Numbering where
  i : Nat
  segments : List MediaPart

def numberRound (template : Template) (startNumber duration : Float)
    (state : Numbering) : Except ParseFailure Numbering :=
  let i := Float.ofNat state.i
  (segmentUrl host template (startNumber + i) (i * duration)).map fun url =>
    { i := count maxExact state.i
      segments := state.segments ++
        [{ url := url, index := state.i, byteRange := none }] }

/-- The loop of a template that has a duration and no timeline. -/
def expandDuration (periodDurationSec duration : Float)
    (attrs : SegmentTemplateAttrs) (template : Template) :
    Run ParseFailure (List MediaPart) := do
  let number := mathCeil (periodDurationSec * attrs.timescale / duration)
  let expanded ← loop (fun state => below (countBelow number) state.i)
    (numberRound host template attrs.startNumber duration)
    { i := 0
      segments := [] }
  pure expanded.segments

def templateInit (attrs : SegmentTemplateAttrs) (template : Template) :
    Except ParseFailure (Option InitSegment) :=
  match attrs.initialization with
  | none | some [] => .ok none
  | some initialization =>
      (segmentUrl host { template with media := initialization } 0 0).map
        fun url => some { url := url, byteRange := none }

def templateOf (attrs : SegmentTemplateAttrs) (rep : RepInfo) (base : Text) :
    Template where
  media := attrs.media
  id := rep.id
  bandwidth := rep.bandwidth
  base := base

/-- The segments of the timeline, or else those of the duration. -/
def templateSegments (attrs : SegmentTemplateAttrs) (template : Template)
    (templateBody : Text) (periodDurationSec : Option Float) :
    Run ParseFailure (List MediaPart) :=
  match firstElement "SegmentTimeline" templateBody, attrs.duration,
      periodDurationSec with
  | some timeline, _, _ =>
      expandTimeline host (parseSegmentTimeline timeline.body)
        periodDurationSec attrs.timescale attrs.startNumber template
  | none, some duration, some periodDurationSec =>
      expandDuration host periodDurationSec duration attrs template
  | none, _, _ => pure []

def buildSegmentTemplatePlan (templateTag templateBody : Text) (rep : RepInfo)
    (base : Text) (periodDurationSec : Option Float) :
    Run ParseFailure SegmentPlan := do
  let attrs := parseSegmentTemplateAttrs templateTag
  let template := templateOf attrs rep base
  let init ← Run.lift (templateInit host attrs template)
  let segments ←
    templateSegments host attrs template templateBody periodDurationSec
  pure
    { container := .fmp4
      init := init
      segments := segments
      isComplete := true }

end Motrix.Media.Dash
