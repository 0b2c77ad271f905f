import Motrix.Lib.TextLines
import Motrix.Lib.Wildcard

/-!
# Host permission patterns

A match pattern of a manifest names a scheme, a host and a path.  It is parsed
once and kept; a URL is looked at as text for userinfo, and then by what the
URL parser makes of it.
-/

namespace Motrix.HostPattern

open Lib.TextLines (isSpace)
open Lib.Wildcard (compile test)

abbrev Text := List Char

/-- The parts of a parsed URL that the matching reads. -/
structure Url where
  protocol : Text
  username : Text
  password : Text
  hostname : Text
  port : Text
  pathname : Text
  search : Text

inductive PatternScheme where
  | any
  | http
  | https
deriving DecidableEq

inductive PatternHost where
  | any
  | exact' (value : Text)
  | subdomain (value : Text)
deriving DecidableEq

/-- The path is kept as the text of its regular expression. -/
structure HostPermissionPattern where
  scheme : PatternScheme
  host : PatternHost
  pathExpression : Text

def httpProtocol : Text :=
  ['h', 't', 't', 'p', ':']

def httpsProtocol : Text :=
  ['h', 't', 't', 'p', 's', ':']

def allUrls : Text :=
  ['<', 'a', 'l', 'l', '_', 'u', 'r', 'l', 's', '>']

/-- The text before and after the first `://`. -/
def splitSeparator : Text → Option (Text × Text)
  | [] => none
  | ':' :: '/' :: '/' :: rest => some ([], rest)
  | letter :: rest =>
      (splitSeparator rest).map fun parts => (letter :: parts.1, parts.2)

def parseScheme (rawScheme : Text) : Option PatternScheme :=
  if rawScheme = ['*'] then some .any
  else if rawScheme = ['h', 't', 't', 'p'] then some .http
  else if rawScheme = ['h', 't', 't', 'p', 's'] then some .https
  else none

def isLowerHex (letter : Char) : Bool :=
  ['a', 'b', 'c', 'd', 'e', 'f'].contains letter

def isHex (letter : Char) : Bool :=
  (48 ≤ letter.toNat && letter.toNat ≤ 57) ||
    ['A', 'B', 'C', 'D', 'E', 'F'].contains letter || isLowerHex letter

def upperHex (letter : Char) : Char :=
  if isLowerHex letter then Char.ofNat (letter.toNat - 32) else letter

def uppercasePercentEscapes : Text → Text
  | '%' :: high :: low :: rest =>
      if isHex high && isHex low then
        '%' :: upperHex high :: upperHex low :: uppercasePercentEscapes rest
      else '%' :: uppercasePercentEscapes (high :: low :: rest)
  | letter :: rest => letter :: uppercasePercentEscapes rest
  | [] => []

def isBracketed (host : Text) : Bool :=
  host.head? == some '[' && host.getLast? == some ']'

/-- A bracketed address, or a name without its root dot. -/
def canonicalUrlHost (hostname : Text) : Option Text :=
  let lower := hostname.map Char.toLower
  if lower = [] then none
  else if lower.head? = some '[' then
    if lower.getLast? = some ']' then some lower else none
  else
    let withoutTrailingDot :=
      if lower.getLast? = some '.' then lower.dropLast else lower
    if withoutTrailingDot = [] then none else some withoutTrailingDot

def matchesPatternHost (pattern : PatternHost) (host : Text) : Bool :=
  match pattern with
  | .any => true
  | .exact' value => value == host
  | .subdomain value => host == value || ('.' :: value).isSuffixOf host

/-! ## Userinfo in the text of a URL -/

def isLetter (letter : Char) : Bool :=
  (65 ≤ letter.toNat && letter.toNat ≤ 90) ||
    (97 ≤ letter.toNat && letter.toNat ≤ 122)

def isSchemeLetter (letter : Char) : Bool :=
  isLetter letter || (48 ≤ letter.toNat && letter.toNat ≤ 57) ||
    ['+', '.', '-'].contains letter

/-- What follows `scheme://`. -/
def schemeAuthority : Text → Option Text
  | [] => none
  | first :: rest =>
      if isLetter first then
        match rest.dropWhile isSchemeLetter with
        | ':' :: '/' :: '/' :: authority => some authority
        | _ => none
      else none

def relativeAuthority : Text → Option Text
  | '/' :: '/' :: authority => some authority
  | _ => none

def endsAuthority (letter : Char) : Bool :=
  ['/', '?', '#', '\\'].contains letter

def hasAuthorityUserInfo (rawUrl : Text) : Bool :=
  let trimmed := rawUrl.dropWhile isSpace
  match (schemeAuthority trimmed).or (relativeAuthority trimmed) with
  | none => false
  | some authority =>
      (authority.takeWhile (!endsAuthority ·)).contains '@'

/-! ## Parsing and matching -/

section Parser

variable (parseUrl : Text → Option Url)

def hostUrl (rawHost : Text) : Text :=
  ['h', 't', 't', 'p', ':', '/', '/'] ++ rawHost ++ ['/']

/-- Patterns have no ports, so a colon stands in a bracketed address only. -/
def canonicalManifestHost (rawHost : Text) : Option Text :=
  if rawHost.contains ':' && !isBracketed rawHost then none
  else
    match parseUrl (hostUrl rawHost) with
    | none => none
    | some parsed =>
        if parsed.username ≠ [] ∨ parsed.password ≠ [] ∨ parsed.port ≠ [] then
          none
        else canonicalUrlHost parsed.hostname

def parsePatternHost (rawHost : Text) : Option PatternHost :=
  if rawHost = ['*'] then some .any
  else
    match rawHost with
    | '*' :: '.' :: suffix =>
        if suffix.contains '*' then none
        else
          match canonicalManifestHost parseUrl suffix with
          | none => none
          | some value =>
              if value.head? = some '[' then none
              else some (.subdomain value)
    | _ =>
        if rawHost.contains '*' then none
        else (canonicalManifestHost parseUrl rawHost).map .exact'

def badHostLetter (letter : Char) : Bool :=
  isSpace letter || ['\\', '@', '?', '#', '%'].contains letter

def parseHostPermissionPatternUncached (pattern : Text) :
    Option HostPermissionPattern :=
  if pattern = allUrls then
    some {
      scheme := .any
      host := .any
      pathExpression := ['^', '\\', '/', '.', '*', '$']
    }
  else do
    let (rawScheme, authorityAndPath) ← splitSeparator pattern
    let scheme ← parseScheme rawScheme
    let rawHost := authorityAndPath.takeWhile (· ≠ '/')
    let rawPath := authorityAndPath.dropWhile (· ≠ '/')
    if rawHost = [] ∨ rawPath = [] ∨ rawPath.contains '#' ∨
        rawHost.any badHostLetter then none
    else do
      let host ← parsePatternHost parseUrl rawHost
      some {
        scheme := scheme
        host := host
        pathExpression := compile (uppercasePercentEscapes rawPath)
      }

def schemeFits (scheme : PatternScheme) (protocol : Text) : Bool :=
  match scheme with
  | .any => true
  | .http => protocol == httpProtocol
  | .https => protocol == httpsProtocol

def matchesPattern (pattern : HostPermissionPattern) (rawUrl : Text) : Bool :=
  if hasAuthorityUserInfo rawUrl then false
  else
    match parseUrl rawUrl with
    | none => false
    | some url =>
        if (url.protocol ≠ httpProtocol ∧ url.protocol ≠ httpsProtocol) ∨
            url.username ≠ [] ∨ url.password ≠ [] then false
        else if !schemeFits pattern.scheme url.protocol then false
        else
          (canonicalUrlHost url.hostname).any fun host =>
            matchesPatternHost pattern.host host &&
              test pattern.pathExpression
                (uppercasePercentEscapes (url.pathname ++ url.search))

/-- The map of parsed patterns, newest first. -/
abbrev Cache := List (Text × Option HostPermissionPattern)

def parseHostPermissionPattern (cache : Cache) (pattern : Text) :
    Option HostPermissionPattern × Cache :=
  match cache.find? (·.1 == pattern) with
  | some cached => (cached.2, cache)
  | none =>
      let parsed := parseHostPermissionPatternUncached parseUrl pattern
      (parsed, (pattern, parsed) :: cache)

def matchesHostPermission (cache : Cache) (pattern rawUrl : Text) :
    Bool × Cache :=
  let parsed := parseHostPermissionPattern parseUrl cache pattern
  match parsed.1 with
  | none => (false, parsed.2)
  | some parsedPattern =>
      (matchesPattern parseUrl parsedPattern rawUrl, parsed.2)

/-- The answers to calls made one after another. -/
def answers : Cache → List (Text × Text) → List Bool
  | _, [] => []
  | cache, call :: rest =>
      let answered := matchesHostPermission parseUrl cache call.1 call.2
      answered.1 :: answers answered.2 rest

/-! ## The cache changes no answer -/

def Cached (cache : Cache) : Prop :=
  ∀ entry ∈ cache,
    entry.2 = parseHostPermissionPatternUncached parseUrl entry.1

variable {parseUrl}

theorem parse_cached {cache : Cache} (cached : Cached parseUrl cache)
    (pattern : Text) :
    (parseHostPermissionPattern parseUrl cache pattern).1 =
        parseHostPermissionPatternUncached parseUrl pattern ∧
      Cached parseUrl
        (parseHostPermissionPattern parseUrl cache pattern).2 := by
  unfold parseHostPermissionPattern
  cases found : cache.find? (·.1 == pattern) with
  | some entry =>
      have same := List.find?_some found
      have right := cached entry (List.mem_of_find?_eq_some found)
      rw [eq_of_beq same] at right
      exact ⟨right, cached⟩
  | none =>
      refine ⟨rfl, ?_⟩
      intro entry member
      rcases List.mem_cons.mp member with rfl | old
      · rfl
      · exact cached entry old

variable (parseUrl) in
/-- The answer of a single call. -/
def answer (pattern rawUrl : Text) : Bool :=
  match parseHostPermissionPatternUncached parseUrl pattern with
  | none => false
  | some parsedPattern => matchesPattern parseUrl parsedPattern rawUrl

theorem matches_cached {cache : Cache} (cached : Cached parseUrl cache)
    (pattern rawUrl : Text) :
    (matchesHostPermission parseUrl cache pattern rawUrl).1 =
        answer parseUrl pattern rawUrl ∧
      Cached parseUrl
        (matchesHostPermission parseUrl cache pattern rawUrl).2 := by
  obtain ⟨same, kept⟩ := parse_cached cached pattern
  unfold matchesHostPermission answer
  rw [← same]
  dsimp only
  split <;> exact ⟨rfl, kept⟩

theorem answers_cached {cache : Cache} (cached : Cached parseUrl cache)
    (calls : List (Text × Text)) :
    answers parseUrl cache calls =
      calls.map fun call => answer parseUrl call.1 call.2 := by
  induction calls generalizing cache with
  | nil => rfl
  | cons call rest induction =>
      obtain ⟨same, kept⟩ := matches_cached cached call.1 call.2
      rw [answers, same, induction kept]
      rfl

end Parser

end Motrix.HostPattern
