import Motrix.Lib.Scan
import Motrix.Media.HlsParser

/-!
# Reading an MPD

The regular expressions of the manifest parser, each as a reader at one place of
the text, and the numbers of the host language.  No pattern has two ways to
match at a place, so a reader goes forward alone.
-/

namespace Motrix.Media.Dash

open Motrix.Lib

/-! ## Numbers -/

def infinity : Float := 1 / 0

def nan : Float := 0 / 0

/-- An unsigned decimal literal. -/
def decimalLiteral (text : Text) : Option Float :=
  let whole := text.takeWhile Char.isDigit
  let (fraction, rest) :=
    match text.dropWhile Char.isDigit with
    | '.' :: more => (more.takeWhile Char.isDigit, more.dropWhile Char.isDigit)
    | more => ([], more)
  let exponent : Option Int :=
    match rest with
    | [] => some 0
    | mark :: power =>
        let (sign, digits) : Int × Text :=
          match power with
          | '-' :: digits => (-1, digits)
          | '+' :: digits => (1, digits)
          | digits => (1, digits)
        if (mark == 'e' || mark == 'E') && digits.all Char.isDigit &&
            !digits.isEmpty then
          some (sign * decimalValue digits)
        else
          none
  if whole.isEmpty && fraction.isEmpty then
    none
  else
    exponent.map fun exponent =>
      let power : Int := exponent - fraction.length
      Float.ofScientific (decimalValue (whole ++ fraction)) (power < 0)
        power.natAbs

def magnitude (text : Text) : Float :=
  if text = "Infinity".toList then infinity
  else (decimalLiteral text).getD nan

/-- A literal of base 2, 8 or 16. -/
def radixLiteral (base : Nat) (digits : Text) : Float :=
  let values := digits.map hexDigit
  if digits.isEmpty ||
      values.any (·.all fun digit => decide (base ≤ digit)) then
    nan
  else
    Float.ofNat (values.foldl (fun value digit => value * base + digit.getD 0) 0)

/-- `Number(text)` -/
def toNumber (text : Text) : Float :=
  match trim text with
  | [] => 0
  | '-' :: digits => -magnitude digits
  | '+' :: digits => magnitude digits
  | '0' :: mark :: digits =>
      if mark == 'x' || mark == 'X' then radixLiteral 16 digits
      else if mark == 'o' || mark == 'O' then radixLiteral 8 digits
      else if mark == 'b' || mark == 'B' then radixLiteral 2 digits
      else magnitude ('0' :: mark :: digits)
  | digits => magnitude digits

/-- The whole number, with the sign the argument had where it is zero. -/
def wholeNumber (sign : Float.Model.UnpackedFloat.Sign) (value : Int) : Float :=
  if value = 0 then
    match sign with
    | .negative => -0
    | .positive => 0
  else
    Float.ofInt value

/-- `Math.round`, which takes halves up. -/
def mathRound (number : Float) : Float :=
  match number.toModel.unpack with
  | .finite sign mantissa exponent _ =>
      if 0 ≤ exponent then
        number
      else
        let unit : Int := 2 ^ (-exponent).toNat
        wholeNumber sign ((2 * sign.apply mantissa + unit) / (2 * unit))
  | _ => number

def mathCeil (number : Float) : Float :=
  match number.toModel.unpack with
  | .finite sign mantissa exponent _ =>
      if 0 ≤ exponent then
        number
      else
        wholeNumber sign
          (-(-sign.apply mantissa / (2 : Int) ^ (-exponent).toNat))
  | _ => number

/-- How many of the numbers 0, 1, … are at most the given one; `none` if all
are. -/
def countTo (number : Float) : Option Nat :=
  match number.toModel.unpack with
  | .infinity .positive => none
  | .zero _ => some 1
  | .finite .positive mantissa exponent _ =>
      if 0 ≤ exponent then some (mantissa * 2 ^ exponent.toNat + 1)
      else some (mantissa / 2 ^ (-exponent).toNat + 1)
  | _ => some 0

/-- How many of the numbers 0, 1, … are less than the given one. -/
def countBelow (number : Float) : Option Nat :=
  match number.toModel.unpack with
  | .infinity .positive => none
  | .finite .positive mantissa exponent _ =>
      if 0 ≤ exponent then
        some (mantissa * 2 ^ exponent.toNat)
      else
        let unit := 2 ^ (-exponent).toNat
        some ((mantissa + unit - 1) / unit)
  | _ => some 0

/-- The whole numbers up to this one are exact, and one more than it is
itself. -/
def maxExact : Nat :=
  2 ^ 53

/-! ## Patterns -/

def isWordCharacter (character : Char) : Bool :=
  character.isAlphanum || character == '_'

/-- `\b` behind a word. -/
def endsWord (rest : Text) : Bool :=
  !(rest.head?.any isWordCharacter)

/-- `name\s*=\s*"([^"]*)"` -/
def readAttr (name : String) (text : Text) : Option Text :=
  (afterWord name.toList text).bind fun rest =>
    match rest.dropWhile isSpace with
    | '=' :: value => quotedValue (value.dropWhile isSpace)
    | _ => none

/-- The first place behind a `\b`. -/
def firstAttr (name : String) : Option Char → Text → Option Text
  | _, [] => none
  | before, character :: rest =>
      (if before.any isWordCharacter then none
        else readAttr name (character :: rest)).or
        (firstAttr name (some character) rest)

def attrVal (tag : Text) (name : String) : Option Text :=
  firstAttr name none tag

/-- `([^>]*)>` -/
def readAttrs (text : Text) : Option (Text × Text) :=
  match text.dropWhile (· ≠ '>') with
  | _ :: rest => some (text.takeWhile (· ≠ '>'), rest)
  | [] => none

/-- `<name\b([^>]*)>` -/
def readTag (name : String) (text : Text) : Option (Text × Text) :=
  (afterWord ('<' :: name.toList) text).bind fun rest =>
    if endsWord rest then readAttrs rest else none

/-- `([\s\S]*?)<\/name>` -/
def readBody (name : String) : Text → Option (Text × Text)
  | [] => none
  | character :: rest =>
      match afterWord ('<' :: '/' :: name.toList ++ ['>'])
          (character :: rest) with
      | some after => some ([], after)
      | none =>
          (readBody name rest).map fun (body, after) =>
            (character :: body, after)

structure Element where
  attrs : Text
  body : Text
  deriving DecidableEq, Repr

/-- `<name\b([^>]*)>([\s\S]*?)<\/name>` -/
def readElement (name : String) (text : Text) : Option (Element × Text) :=
  (readTag name text).bind fun (attrs, rest) =>
    (readBody name rest).map fun (body, after) => (⟨attrs, body⟩, after)

variable {Found : Type}

def exec (read : Text → Option Found) (text : Text) : Option Found :=
  firstPlace read text

/-- The matches from the front, each behind the one before it. -/
def matchesWithin (read : Text → Option (Found × Text)) :
    Nat → Text → List Found
  | 0, _ => []
  | fuel + 1, text =>
      match read text with
      | some (found, after) => found :: matchesWithin read fuel after
      | none =>
          match text with
          | [] => []
          | _ :: rest => matchesWithin read fuel rest

/-- `text.matchAll(pattern)`; every match of the patterns takes a
character. -/
def matchAll (read : Text → Option (Found × Text)) (text : Text) :
    List Found :=
  matchesWithin read (text.length + 1) text

def firstElement (name : String) (text : Text) : Option Element :=
  (exec (readElement name) text).map Prod.fst

end Motrix.Media.Dash
