import Motrix.Lib.Utf16

/-!
# Selectors of advisories

An advisory of a security policy selects versions of a plugin or an archive.
-/

namespace Motrix.Plugin.Security

open Lib

inductive Selector where
  | plugin (pluginId : String) (fromInclusive beforeExclusive : Option String)
  | archive (sha256 : String)
  deriving DecidableEq

structure PluginIdentity where
  pluginId : String
  version : String
  archiveSha256 : Option String
  deriving DecidableEq

/-! ## Versions -/

section Versions

-- `Number.parseInt` of decimal digits.
variable (parseInt : List Char → Nat)

def isNumeric (part : List Char) : Bool :=
  !part.isEmpty && part.all Char.isDigit

structure ParsedSemver where
  core : List (Option Nat)
  pre : List (List Char)

def parseSemver (version : List Char) : ParsedSemver :=
  let noBuild := version.takeWhile (· != '+')
  let corePart := noBuild.takeWhile (· != '-')
  let prePart := (noBuild.dropWhile (· != '-')).drop 1
  { core := (corePart.splitOn '.').map fun part =>
      if isNumeric part then some (parseInt part) else none
    pre := if prePart.isEmpty then [] else prePart.splitOn '.' }

/-- The first three numbers; `none` if they are equal. -/
def compareCore (a b : ParsedSemver) : List Nat → Option Int
  | [] => none
  | i :: rest =>
      match a.core[i]?.getD (some 0), b.core[i]?.getD (some 0) with
      | some ai, some bi =>
          if ai ≠ bi then some (if ai > bi then 1 else -1)
          else compareCore a b rest
      | _, _ => some 0

def comparePre : List (List Char) → List (List Char) → Int
  | [], [] => 0
  | [], _ :: _ => -1
  | _ :: _, [] => 1
  | x :: xs, y :: ys =>
      if isNumeric x then
        if isNumeric y then
          if parseInt x ≠ parseInt y then
            if parseInt x > parseInt y then 1 else -1
          else comparePre xs ys
        else -1
      else if isNumeric y then 1
      else if x ≠ y then
        if Utf16.encode y < Utf16.encode x then 1 else -1
      else comparePre xs ys

def compareSemver (left right : String) : Int :=
  let a := parseSemver parseInt left.toList
  let b := parseSemver parseInt right.toList
  match compareCore a b [0, 1, 2] with
  | some order => order
  | none =>
      if a.pre.isEmpty && b.pre.isEmpty then 0
      else if a.pre.isEmpty then 1
      else if b.pre.isEmpty then -1
      else comparePre parseInt a.pre b.pre

def Selector.selects (identity : PluginIdentity) : Selector → Bool
  | .archive sha256 => identity.archiveSha256 == some sha256
  | .plugin pluginId fromInclusive beforeExclusive =>
      identity.pluginId == pluginId &&
        (fromInclusive.all fun least =>
          least.isEmpty || 0 ≤ compareSemver parseInt identity.version least) &&
        beforeExclusive.all fun bound =>
          bound.isEmpty || compareSemver parseInt identity.version bound < 0

end Versions

end Motrix.Plugin.Security
