import Mathlib.Data.List.SplitBy
import Mathlib.Data.List.Basic

/-!
# Browser extension transport identity

An extension is known to the bridge by its browser and the host of its origin.
Only canonical origin bytes count as evidence: the parsed URL must render back
to exactly the text that was verified.
-/

namespace Motrix.Bridge

inductive Browser where
  | chromium
  | firefox
  | safari
  deriving DecidableEq, Repr

/-- `EXTENSION_ORIGIN_SCHEMES` -/
def extensionOriginScheme : Browser → String
  | .chromium => "chrome-extension"
  | .firefox => "moz-extension"
  | .safari => "safari-web-extension"

/-- The components of a WHATWG `URL` the bridge reads. -/
structure Url where
  protocol : String
  hostname : String
  host : String
  port : String
  username : String
  password : String
  pathname : String
  search : String
  hash : String
  deriving DecidableEq, Repr

/-- `new URL(text)`; `none` where the constructor throws. -/
abbrev ParseUrl := String → Option Url

/-- `String.prototype.length`, in UTF-16 code units. -/
def jsLength (s : String) : Nat :=
  s.toList.foldl (fun length character =>
    length + if character.toNat < 0x10000 then 1 else 2) 0

def startsWith (text start : String) : Bool :=
  start.toList.isPrefixOf text.toList

/-- `String.prototype.toLowerCase` on ASCII, the only text that
`containsUnsafeOriginSyntax` lets through. -/
def toLowerCase (text : String) : String :=
  String.ofList (text.toList.map Char.toLower)

private def isLowerHex (character : Char) : Bool :=
  let code := character.toNat
  (48 ≤ code && code ≤ 57) || (97 ≤ code && code ≤ 102)

/-- Five groups of lowercase hexadecimal digits of the UUID widths. -/
private def uuidGroups (characters : List Char) : Option (List (List Char)) :=
  let groups := characters.splitOn '-'
  if groups.map (fun group => group.length) = [8, 4, 4, 4, 12] ∧
      groups.all (fun group => group.all isLowerHex) then some groups
  else none

def isSafariExtensionOrigin (origin : String) : Bool :=
  startsWith origin "safari-web-extension://" &&
    (uuidGroups (origin.toList.drop 23)).isSome

/-- `UUID_V4_PATTERN` -/
def isUuidV4 (text : String) : Bool :=
  match uuidGroups text.toList with
  | some [_, _, version, variant, _] =>
      version.head? = some '4' &&
        ['8', '9', 'a', 'b'].contains (variant.headD '0')
  | _ => false

example : isUuidV4 "0f8fad5b-d9cb-469f-a165-70867728950e" = true := by decide

structure ExtensionIdentityInput where
  browser : Browser
  verifiedOrigin : String
  claimedExtensionId : String
  deriving DecidableEq, Repr

/-- `verifiedExtensionId` is `none` for Firefox and Safari, whose claimed ids
prove nothing. -/
structure NormalizedExtensionIdentity where
  browser : Browser
  originHost : String
  verifiedExtensionId : Option String
  deriving DecidableEq, Repr

/-- Whitespace outside the printable ASCII range falls under the last two
tests. -/
def containsUnsafeOriginSyntax (value : String) : Bool :=
  value.toList.any fun character =>
    character = '\\' || character = '%' || character = ' ' ||
      character.toNat ≤ 0x1f || character.toNat ≥ 0x7f

/-- `none` is `INVALID_IDENTITY_RESULT`. -/
def normalizeExtensionIdentity (parseUrl : ParseUrl)
    (input : ExtensionIdentityInput) : Option NormalizedExtensionIdentity :=
  let scheme := extensionOriginScheme input.browser ++ ":"
  let start := scheme ++ "//"
  if input.browser = .safari ∧
      ¬ isSafariExtensionOrigin input.verifiedOrigin then none
  else if input.verifiedOrigin = "" ∨
      ¬ startsWith input.verifiedOrigin start ∨
      containsUnsafeOriginSyntax input.verifiedOrigin then none
  else
    match parseUrl input.verifiedOrigin with
    | none => none
    | some parsed =>
        if parsed.protocol ≠ scheme ∨ parsed.hostname = "" ∨
            parsed.port ≠ "" ∨ parsed.username ≠ "" ∨ parsed.password ≠ "" ∨
            parsed.pathname ≠ "" ∨ parsed.search ≠ "" ∨ parsed.hash ≠ "" then
          none
        else if input.verifiedOrigin ≠ start ++ parsed.hostname then none
        else if input.browser = .chromium ∧
            parsed.hostname ≠ input.claimedExtensionId then none
        else
          some
            { browser := input.browser
              originHost := parsed.hostname
              verifiedExtensionId :=
                if input.browser = .chromium then some parsed.hostname
                else none }

end Motrix.Bridge
