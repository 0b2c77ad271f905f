import Motrix.Lib.ByteCodec

/-!
# Segment plans

What a media playlist is parsed into.  A number of the host language is kept
when it is a natural one; a numeral that is none, or too large to be finite,
has no value.
-/

namespace Motrix.Media

open Motrix.Lib

abbrev Text := List Char

abbrev Number := Option Nat

/-- The nearest number with 53 significant bits, or the even one of two. -/
def roundToDouble (value : Nat) : Nat :=
  let unit := 2 ^ (Nat.log2 value + 1 - 53)
  let low := value / unit
  let rest := value % unit
  if 2 * rest > unit ∨ 2 * rest = unit ∧ low % 2 = 1 then
    (low + 1) * unit
  else
    low * unit

def finiteNumber (value : Nat) : Number :=
  let rounded := roundToDouble value
  if rounded < 2 ^ 1024 then some rounded else none

def addNumbers (left right : Number) : Number :=
  match left, right with
  | some left, some right => finiteNumber (left + right)
  | _, _ => none

structure ByteRange where
  offset : Number
  length : Number
  deriving DecidableEq, Repr

structure KeyRef where
  uri : Text
  iv : Bytes
  deriving DecidableEq, Repr

structure InitSegment where
  url : Text
  byteRange : Option ByteRange
  key : Option KeyRef
  deriving DecidableEq, Repr

structure MediaPart where
  url : Text
  index : Nat
  byteRange : Option ByteRange
  key : Option KeyRef
  deriving DecidableEq, Repr

inductive Container where
  | mpegts
  | fmp4
  deriving DecidableEq, Repr

structure SegmentPlan where
  container : Container
  init : Option InitSegment
  segments : List MediaPart
  isComplete : Bool
  deriving DecidableEq, Repr

inductive MediaErrorCode where
  | unsupportedLive
  | unsupportedMaster
  | unsupportedEncryption
  deriving DecidableEq, Repr

inductive ParseFailure where
  | media (code : MediaErrorCode) (message : String)
  | thrown (message : String)
  deriving DecidableEq, Repr

/-- The low 64 bits of the number behind eight zeros. -/
def seqNumberIv (seq : Number) : Except ParseFailure Bytes :=
  match seq with
  | none => .error (.thrown "The number cannot be converted to a BigInt")
  | some value => .ok (List.replicate 8 0 ++ bigEndian 8 value)

end Motrix.Media
