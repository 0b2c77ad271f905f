import Mathlib.Data.List.TakeWhile
import Motrix.Plugin.HostPattern

/-!
# What a host permission permits

The matching answers as the grammar of patterns says, for every URL whose
userinfo can be read off its text: one that is spelled plainly, has none, or
has one that the URL parser reports.
-/

namespace Motrix.HostPattern

open Lib.TextLines (isSpace)
open Lib.Wildcard (Glob accepts_iff compile test lineTerminator test_compile)

/-! ## The URL standard -/

def isControlOrSpace (letter : Char) : Bool :=
  letter.toNat ≤ 32

def isTabOrNewline (letter : Char) : Bool :=
  [9, 10, 13].contains letter.toNat

def isSlash (letter : Char) : Bool :=
  letter = '/' || letter = '\\'

/-- The text that the parser reads: without controls and spaces in front, and
without tabs and line breaks anywhere. -/
def parserInput (url : Text) : Text :=
  (url.dropWhile isControlOrSpace).filter (!isTabOrNewline ·)

/-- The authority of an `http` or `https` URL, which begins behind any number
of slashes. -/
def parsedAuthority (url : Text) : Text :=
  let behindScheme := ((parserInput url).dropWhile (· ≠ ':')).drop 1
  (behindScheme.dropWhile isSlash).takeWhile (!endsAuthority ·)

def IsHttp (url : Url) : Prop :=
  url.protocol = httpProtocol ∨ url.protocol = httpsProtocol

instance (url : Url) : Decidable (IsHttp url) :=
  inferInstanceAs (Decidable (_ ∨ _))

/-- What the matching relies on of a URL parser. -/
structure Whatwg (parseUrl : Text → Option Url) : Prop where
  scheme : ∀ url parsed, parseUrl url = some parsed →
    ∃ first rest, parserInput url = first :: rest ∧ isLetter first = true
  userInfo : ∀ url parsed, parseUrl url = some parsed → IsHttp parsed →
    '@' ∉ parsedAuthority url → parsed.username = [] ∧ parsed.password = []
  line : ∀ url parsed, parseUrl url = some parsed → IsHttp parsed →
    ∀ letter ∈ parsed.pathname ++ parsed.search,
      lineTerminator letter = false

/-- White space, a scheme, `://` and then the authority at once. -/
structure PlainlySpelled (lead scheme authority : Text) : Prop where
  spaces : ∀ letter ∈ lead,
    isSpace letter = true ∧ isControlOrSpace letter = true
  letters : ∀ letter ∈ scheme, isSchemeLetter letter = true
  first : ∃ first rest, scheme = first :: rest ∧ isLetter first = true
  start : ∀ letter ∈ authority.head?,
    isSlash letter = false ∧ isTabOrNewline letter = false

/-- An empty userinfo, which the parser does not report, can be seen in a
plain spelling only. -/
def Readable (parseUrl : Text → Option Url) (url : Text) : Prop :=
  (∃ lead scheme authority,
      url = lead ++ (scheme ++ ':' :: '/' :: '/' :: authority) ∧
        PlainlySpelled lead scheme authority) ∨
    '@' ∉ parsedAuthority url ∨
    ∃ parsed, parseUrl url = some parsed ∧
      (parsed.username ≠ [] ∨ parsed.password ≠ [])

/-! ## The grammar of patterns -/

section Grammar

variable (parseUrl : Text → Option Url)

structure CanonicalHost (rawHost value : Text) : Prop where
  noPort : ':' ∈ rawHost → isBracketed rawHost = true
  parses : ∃ parsed, parseUrl (hostUrl rawHost) = some parsed ∧
    parsed.username = [] ∧ parsed.password = [] ∧ parsed.port = [] ∧
    canonicalUrlHost parsed.hostname = some value

inductive HostText : Text → PatternHost → Prop where
  | any : HostText ['*'] .any
  | subdomain {suffix value : Text} (plain : '*' ∉ suffix)
      (canonical : CanonicalHost parseUrl suffix value)
      (name : value.head? ≠ some '[') :
      HostText ('*' :: '.' :: suffix) (.subdomain value)
  | exact' {rawHost value : Text} (plain : '*' ∉ rawHost)
      (canonical : CanonicalHost parseUrl rawHost value) :
      HostText rawHost (.exact' value)

def schemeText : PatternScheme → Text
  | .any => ['*']
  | .http => ['h', 't', 't', 'p']
  | .https => ['h', 't', 't', 'p', 's']

inductive Written : Text → PatternScheme → PatternHost → Text → Prop where
  | allUrls : Written allUrls .any .any ['/', '*']
  | parts {scheme : PatternScheme} {rawHost path : Text} {host : PatternHost}
      (filled : rawHost ≠ [])
      (letters : ∀ letter ∈ rawHost,
        letter ≠ '/' ∧ badHostLetter letter = false)
      (hostText : HostText parseUrl rawHost host)
      (noFragment : '#' ∉ path) :
      Written
        (schemeText scheme ++ ':' :: '/' :: '/' :: (rawHost ++ '/' :: path))
        scheme host ('/' :: path)

def Covers : PatternHost → Text → Prop
  | .any, _ => True
  | .exact' value, host => value = host
  | .subdomain value, host =>
      host = value ∨ ∃ labels, host = labels ++ '.' :: value

/-- The pattern is well formed and speaks of the URL. -/
structure Permits (pattern url : Text) (scheme : PatternScheme)
    (host : PatternHost) (path : Text) (parsed : Url) : Prop where
  written : Written parseUrl pattern scheme host path
  parses : parseUrl url = some parsed
  http : IsHttp parsed
  scheme : scheme = .any ∨ parsed.protocol = schemeText scheme ++ [':']
  noUserInfo : '@' ∉ parsedAuthority url
  host : ∃ value, canonicalUrlHost parsed.hostname = some value ∧
    Covers host value
  path : Glob (uppercasePercentEscapes path)
    (uppercasePercentEscapes (parsed.pathname ++ parsed.search))

/-! ## Patterns -/

variable {parseUrl}

theorem canonicalManifestHost_iff {rawHost value : Text} :
    canonicalManifestHost parseUrl rawHost = some value ↔
      CanonicalHost parseUrl rawHost value := by
  unfold canonicalManifestHost
  constructor
  · intro canonical
    split at canonical
    · cases canonical
    · next noPort =>
        split at canonical
        · cases canonical
        · next parsed found =>
            split at canonical
            · cases canonical
            · next plain =>
                simp only [not_or, not_not, ne_eq] at plain
                refine ⟨?_, parsed, found, plain.1, plain.2.1, plain.2.2,
                  canonical⟩
                intro colon
                simpa [colon] using noPort
  · rintro ⟨noPort, parsed, found, user, password, port, canonical⟩
    have bracketed : ¬ (rawHost.contains ':' && !isBracketed rawHost) =
        true := by
      by_cases colon : ':' ∈ rawHost
      · simp [noPort colon]
      · simp [colon]
    rw [if_neg bracketed, found]
    simpa [user, password, port] using canonical

theorem parsePatternHost_iff {rawHost : Text} {host : PatternHost} :
    parsePatternHost parseUrl rawHost = some host ↔
      HostText parseUrl rawHost host := by
  constructor
  · intro parsed
    unfold parsePatternHost at parsed
    split at parsed
    · next star =>
        cases parsed
        rw [star]
        exact .any
    · split at parsed
      · next suffix =>
          split at parsed
          · cases parsed
          · next plain =>
              split at parsed
              · cases parsed
              · next value canonical =>
                  split at parsed
                  · cases parsed
                  · next name =>
                      cases parsed
                      exact .subdomain (by simpa using plain)
                        (canonicalManifestHost_iff.mp canonical) name
      · split at parsed
        · cases parsed
        · next plain =>
            obtain ⟨value, canonical, rfl⟩ := Option.map_eq_some_iff.mp parsed
            exact .exact' (by simpa using plain)
              (canonicalManifestHost_iff.mp canonical)
  · intro written
    cases written with
    | any => rfl
    | subdomain plain canonical name =>
        simp [parsePatternHost, plain, name,
          canonicalManifestHost_iff.mpr canonical]
    | @exact' rawHost value plain canonical =>
        have apart : rawHost ≠ ['*'] := by
          rintro rfl
          exact plain List.mem_cons_self
        unfold parsePatternHost
        rw [if_neg apart]
        split
        · exact absurd List.mem_cons_self plain
        · simp [plain, canonicalManifestHost_iff.mpr canonical]

theorem splitSeparator_some {pattern before after : Text}
    (split : splitSeparator pattern = some (before, after)) :
    pattern = before ++ ':' :: '/' :: '/' :: after := by
  induction pattern generalizing before with
  | nil => cases split
  | cons letter rest induction =>
      rw [splitSeparator.eq_def] at split
      split at split
      · next equal =>
          cases equal
      · next equal =>
          cases equal
          cases split
          rfl
      · next equal =>
          cases equal
          obtain ⟨parts, inner, same⟩ := Option.map_eq_some_iff.mp split
          cases same
          rw [induction inner]
          rfl

theorem splitSeparator_scheme (scheme : PatternScheme) (after : Text) :
    splitSeparator (schemeText scheme ++ ':' :: '/' :: '/' :: after) =
      some (schemeText scheme, after) := by
  cases scheme <;> simp [schemeText, splitSeparator]

theorem parseScheme_iff {rawScheme : Text} {scheme : PatternScheme} :
    parseScheme rawScheme = some scheme ↔ rawScheme = schemeText scheme := by
  constructor
  · intro parsed
    unfold parseScheme at parsed
    split at parsed
    · next same =>
        cases parsed
        exact same
    · split at parsed
      · next same =>
          cases parsed
          exact same
      · split at parsed
        · next same =>
            cases parsed
            exact same
        · cases parsed
  · rintro rfl
    cases scheme <;> rfl

/-- The expression of a pattern matches what its path means. -/
def Expresses (expression path : Text) : Prop :=
  ∀ text : Text, (∀ letter ∈ text, lineTerminator letter = false) →
    (test expression text = true ↔ Glob (uppercasePercentEscapes path) text)

theorem allUrls_expresses :
    Expresses ['^', '\\', '/', '.', '*', '$'] ['/', '*'] := by
  intro text line
  exact accepts_iff ['/', '*'] line

theorem parse_written {pattern : Text} {parsed : HostPermissionPattern}
    (found :
      parseHostPermissionPatternUncached parseUrl pattern = some parsed) :
    ∃ path, Written parseUrl pattern parsed.scheme parsed.host path ∧
      Expresses parsed.pathExpression path := by
  unfold parseHostPermissionPatternUncached at found
  split at found
  · next all =>
      cases found
      rw [all]
      exact ⟨['/', '*'], .allUrls, allUrls_expresses⟩
  · simp only [Option.bind_eq_bind, Option.bind_eq_some_iff] at found
    obtain ⟨⟨rawScheme, after⟩, separated, scheme, schemed, found⟩ := found
    split at found
    · cases found
    · next refused =>
        obtain ⟨host, hosted, found⟩ := Option.bind_eq_some_iff.mp found
        cases found
        simp only [not_or, Bool.not_eq_true, List.any_eq_false] at refused
        obtain ⟨filled, present, noFragment, letters⟩ := refused
        have front := List.takeWhile_append_dropWhile (p := (· ≠ '/'))
          (l := after)
        obtain ⟨first, path, rawPath⟩ := List.exists_cons_of_ne_nil present
        have slash : first = '/' := by
          have head := List.head?_dropWhile_not (· ≠ '/') after
          rw [rawPath] at head
          simpa using head
        subst slash
        rw [rawPath] at front noFragment ⊢
        have whole := splitSeparator_some separated
        have spelled : rawScheme = schemeText scheme :=
          parseScheme_iff.mp schemed
        rw [spelled, ← front] at whole
        refine ⟨'/' :: path, ?_, fun text line => test_compile _ line⟩
        rw [whole]
        refine .parts filled ?_ (parsePatternHost_iff.mp hosted) ?_
        · intro letter member
          refine ⟨?_, letters letter member⟩
          have notSlash := List.mem_takeWhile_imp member
          simpa using notSlash
        · simpa using noFragment

theorem written_parse {pattern path : Text} {scheme : PatternScheme}
    {host : PatternHost}
    (written : Written parseUrl pattern scheme host path) :
    ∃ expression,
      parseHostPermissionPatternUncached parseUrl pattern = some {
        scheme := scheme
        host := host
        pathExpression := expression
      } ∧ Expresses expression path := by
  cases written with
  | allUrls =>
      refine ⟨_, ?_, allUrls_expresses⟩
      unfold parseHostPermissionPatternUncached
      rw [if_pos rfl]
  | @parts scheme rawHost path host filled letters hostText noFragment =>
      refine ⟨_, ?_, fun text line => test_compile _ line⟩
      have other : schemeText scheme ++ ':' :: '/' :: '/' ::
          (rawHost ++ '/' :: path) ≠ allUrls := by
        cases scheme <;> simp [schemeText, allUrls]
      have notSlash : ∀ letter ∈ rawHost, decide (letter ≠ '/') = true :=
        fun letter member => decide_eq_true (letters letter member).1
      have front : (rawHost ++ '/' :: path).takeWhile (· ≠ '/') =
          rawHost := by
        rw [List.takeWhile_append_of_pos notSlash]
        simp
      have back : (rawHost ++ '/' :: path).dropWhile (· ≠ '/') =
          '/' :: path := by
        rw [List.dropWhile_append_of_pos notSlash]
        simp
      have good : rawHost.any badHostLetter = false := by
        rw [List.any_eq_false]
        intro letter member
        simp [(letters letter member).2]
      unfold parseHostPermissionPatternUncached
      rw [if_neg other, splitSeparator_scheme]
      simp only [Option.bind_eq_bind, Option.bind_some, front, back,
        parseScheme_iff.mpr rfl, good]
      rw [if_neg (by simp [filled, noFragment])]
      rw [parsePatternHost_iff.mpr hostText]
      rfl

end Grammar

/-! ## Userinfo -/

theorem letter_notSpace {letter : Char} (isLetter' : isLetter letter = true) :
    isSpace letter = false ∧ isControlOrSpace letter = false := by
  have bounds : 65 ≤ letter.toNat ∧ letter.toNat ≤ 122 := by
    simp only [isLetter, Bool.or_eq_true, Bool.and_eq_true,
      decide_eq_true_eq] at isLetter'
    omega
  constructor
  · simp only [isSpace, List.contains_eq_mem, List.mem_cons,
      List.not_mem_nil, or_false, Bool.or_eq_false_iff,
      decide_eq_false_iff_not]
    omega
  · simp only [isControlOrSpace, decide_eq_false_iff_not]
    omega

theorem mem_takeWhile_filter {p go : Char → Bool} {text : Text}
    {wanted : Char} (isKept : p wanted = true)
    (skips : ∀ letter, p letter = false → go letter = true) :
    wanted ∈ (text.filter p).takeWhile go ↔
      wanted ∈ text.takeWhile go := by
  induction text with
  | nil => rfl
  | cons letter text induction =>
      cases kept : p letter with
      | false =>
          rw [List.filter_cons_of_neg (by simp [kept]),
            List.takeWhile_cons_of_pos (skips letter kept), induction]
          have apart : wanted ≠ letter := by
            rintro rfl
            rw [isKept] at kept
            cases kept
          simp [apart]
      | true =>
          rw [List.filter_cons_of_pos kept]
          cases going : go letter with
          | false => simp [going]
          | true => simp [going, induction]

theorem endsAuthority_of_slash {letter : Char}
    (slash : isSlash letter = true) : endsAuthority letter = true := by
  simp only [isSlash, Bool.or_eq_true, decide_eq_true_eq] at slash
  rcases slash with rfl | rfl <;> rfl

theorem skipped_goes (letter : Char)
    (skipped : (!isTabOrNewline letter) = false) :
    (!endsAuthority letter) = true := by
  cases ends : endsAuthority letter with
  | false => rfl
  | true =>
      simp only [endsAuthority, List.contains_eq_mem, List.mem_cons,
        List.not_mem_nil, or_false, decide_eq_true_eq] at ends
      rcases ends with rfl | rfl | rfl | rfl <;> cases skipped

theorem schemeLetter_plain {letter : Char}
    (schemed : isSchemeLetter letter = true) :
    letter ≠ ':' ∧ isTabOrNewline letter = false := by
  constructor
  · rintro rfl
    revert schemed
    decide
  · cases tab : isTabOrNewline letter with
    | false => rfl
    | true =>
        simp only [isTabOrNewline, List.contains_eq_mem, List.mem_cons,
          List.not_mem_nil, or_false, decide_eq_true_eq] at tab
        have low : ∀ code, code = 9 ∨ code = 10 ∨ code = 13 →
            letter.toNat = code → isSchemeLetter letter = false := by
          intro code codes same
          have small : letter = Char.ofNat code := by
            rw [← same, Char.ofNat_toNat]
          rcases codes with rfl | rfl | rfl <;> rw [small] <;> rfl
        rw [low letter.toNat tab rfl] at schemed
        cases schemed

/-- The authority of a text that spells `scheme://`. -/
theorem parsedAuthority_spelled {lead scheme authority : Text}
    (spaces : ∀ letter ∈ lead, isControlOrSpace letter = true)
    (letters : ∀ letter ∈ scheme, isSchemeLetter letter = true)
    (first : ∃ first rest, scheme = first :: rest ∧ isLetter first = true) :
    parsedAuthority (lead ++ (scheme ++ ':' :: '/' :: '/' :: authority)) =
      ((authority.filter (!isTabOrNewline ·)).dropWhile isSlash).takeWhile
        (!endsAuthority ·) := by
  have input : parserInput
      (lead ++ (scheme ++ ':' :: '/' :: '/' :: authority)) =
        scheme ++ ':' :: '/' :: '/' ::
          authority.filter (!isTabOrNewline ·) := by
    unfold parserInput
    rw [List.dropWhile_append_of_pos spaces]
    obtain ⟨first, rest, rfl, letter⟩ := first
    rw [List.cons_append, List.dropWhile_cons_of_neg
      (by simp [(letter_notSpace letter).2]), ← List.cons_append,
      List.filter_append]
    have kept : (first :: rest).filter (!isTabOrNewline ·) =
        first :: rest := by
      apply List.filter_eq_self.mpr
      intro letter member
      simp [(schemeLetter_plain (letters letter member)).2]
    rw [kept]
    rfl
  have before : ∀ letter ∈ scheme, decide (letter ≠ ':') = true :=
    fun letter member =>
      decide_eq_true (schemeLetter_plain (letters letter member)).1
  unfold parsedAuthority
  rw [input, List.dropWhile_append_of_pos before]
  simp [isSlash]

theorem schemeAuthority_some {text authority : Text}
    (found : schemeAuthority text = some authority) :
    ∃ scheme, text = scheme ++ ':' :: '/' :: '/' :: authority ∧
      (∀ letter ∈ scheme, isSchemeLetter letter = true) ∧
      ∃ first rest, scheme = first :: rest ∧ isLetter first = true := by
  cases text with
  | nil => cases found
  | cons first rest =>
      simp only [schemeAuthority] at found
      split at found
      · next letter =>
          split at found
          · next authority' dropped =>
              cases found
              have front := List.takeWhile_append_dropWhile
                (p := isSchemeLetter) (l := rest)
              rw [dropped] at front
              refine ⟨first :: rest.takeWhile isSchemeLetter, ?_, ?_, first,
                _, rfl, letter⟩
              · rw [List.cons_append, front]
              · intro other member
                rcases List.mem_cons.mp member with rfl | later
                · simp [isSchemeLetter, letter]
                · exact List.mem_takeWhile_imp later
          · cases found
      · cases found

theorem schemeAuthority_spelled {scheme authority : Text}
    (letters : ∀ letter ∈ scheme, isSchemeLetter letter = true)
    (first : ∃ first rest, scheme = first :: rest ∧ isLetter first = true) :
    schemeAuthority (scheme ++ ':' :: '/' :: '/' :: authority) =
      some authority := by
  obtain ⟨first, rest, rfl, letter⟩ := first
  have later : ∀ other ∈ rest, isSchemeLetter other = true :=
    fun other member => letters other (List.mem_cons_of_mem _ member)
  simp only [List.cons_append, schemeAuthority, letter, if_true]
  rw [List.dropWhile_append_of_pos later,
    List.dropWhile_cons_of_neg (by decide)]
  rfl

/-- White space before the first letter is what both views take away, unless
the parser refuses the text. -/
theorem lead_controls {url lead rest : Text} {first : Char}
    (input : ∃ letter text, parserInput url = letter :: text ∧
      isLetter letter = true)
    (spaces : ∀ letter ∈ lead, isSpace letter = true)
    (whole : url = lead ++ first :: rest) :
    ∀ letter ∈ lead, isControlOrSpace letter = true := by
  induction lead generalizing url with
  | nil => simp
  | cons letter lead induction =>
      have space := spaces letter List.mem_cons_self
      cases control : isControlOrSpace letter with
      | true =>
          have inner : parserInput (lead ++ first :: rest) =
              parserInput url := by
            rw [whole]
            simp [parserInput, control]
          intro other member
          rcases List.mem_cons.mp member with rfl | later
          · exact control
          · exact induction (inner ▸ input)
              (fun one inside => spaces one (List.mem_cons_of_mem _ inside))
              rfl other later
      | false =>
          exfalso
          obtain ⟨head, text, starts, isLetter'⟩ := input
          have kept : isTabOrNewline letter = false := by
            cases tab : isTabOrNewline letter with
            | false => rfl
            | true =>
                simp only [isTabOrNewline, List.contains_eq_mem,
                  List.mem_cons, List.not_mem_nil, or_false,
                  decide_eq_true_eq] at tab
                simp only [isControlOrSpace,
                  decide_eq_false_iff_not] at control
                omega
          rw [whole] at starts
          simp only [parserInput, List.cons_append] at starts
          rw [List.dropWhile_cons_of_neg (by simp [control]),
            List.filter_cons_of_pos (by simp [kept])] at starts
          cases starts
          rw [(letter_notSpace isLetter').1] at space
          cases space

/-- Userinfo in the text is userinfo to the parser. -/
theorem userInfo_parsed {url : Text}
    (input : ∃ letter text, parserInput url = letter :: text ∧
      isLetter letter = true)
    (sees : hasAuthorityUserInfo url = true) : '@' ∈ parsedAuthority url := by
  have whole := List.takeWhile_append_dropWhile (p := isSpace) (l := url)
  have spaces : ∀ letter ∈ url.takeWhile isSpace, isSpace letter = true :=
    fun letter member => List.mem_takeWhile_imp member
  unfold hasAuthorityUserInfo at sees
  dsimp only at sees
  cases found : schemeAuthority (url.dropWhile isSpace) with
  | some authority =>
      rw [found] at sees
      obtain ⟨scheme, text, letters, first⟩ := schemeAuthority_some found
      rw [text] at whole
      have controls : ∀ letter ∈ url.takeWhile isSpace,
          isControlOrSpace letter = true := by
        obtain ⟨first, rest, rfl, -⟩ := first
        exact lead_controls input spaces whole.symm
      rw [← whole, parsedAuthority_spelled controls letters first]
      simp only [Option.some_or, List.contains_eq_mem,
        decide_eq_true_eq] at sees
      rw [← mem_takeWhile_filter (p := (!isTabOrNewline ·)) rfl
        skipped_goes] at sees
      cases rest : authority.filter (!isTabOrNewline ·) with
      | nil =>
          rw [rest] at sees
          cases sees
      | cons letter others =>
          rw [rest] at sees
          have plain : isSlash letter = false := by
            cases slash : isSlash letter with
            | false => rfl
            | true =>
                rw [List.takeWhile_cons_of_neg
                  (by simp [endsAuthority_of_slash slash])] at sees
                cases sees
          rw [List.dropWhile_cons_of_neg (by simp [plain])]
          exact sees
  | none =>
      exfalso
      rw [found] at sees
      cases relative : relativeAuthority (url.dropWhile isSpace) with
      | none =>
          rw [relative] at sees
          cases sees
      | some authority =>
          have text : url.dropWhile isSpace = '/' :: '/' :: authority := by
            unfold relativeAuthority at relative
            split at relative
            · next equal =>
                cases relative
                exact equal
            · cases relative
          rw [text] at whole
          have controls := lead_controls input spaces whole.symm
          obtain ⟨letter, rest, starts, isLetter'⟩ := input
          rw [← whole] at starts
          unfold parserInput at starts
          rw [List.dropWhile_append_of_pos controls] at starts
          rw [List.dropWhile_cons_of_neg (by decide),
            List.filter_cons_of_pos (by decide)] at starts
          cases starts
          cases isLetter'

/-- In a plain spelling the scan sees what the parser sees. -/
theorem plain_userInfo {lead scheme authority : Text}
    (plain : PlainlySpelled lead scheme authority)
    (userInfo : '@' ∈ parsedAuthority
      (lead ++ (scheme ++ ':' :: '/' :: '/' :: authority))) :
    hasAuthorityUserInfo
      (lead ++ (scheme ++ ':' :: '/' :: '/' :: authority)) = true := by
  rw [parsedAuthority_spelled (fun letter member =>
    (plain.spaces letter member).2) plain.letters plain.first] at userInfo
  have kept : (authority.filter (!isTabOrNewline ·)).dropWhile isSlash =
      authority.filter (!isTabOrNewline ·) := by
    cases authority with
    | nil => rfl
    | cons letter rest =>
        obtain ⟨slash, tab⟩ := plain.start letter rfl
        rw [List.filter_cons_of_pos (by simp [tab]),
          List.dropWhile_cons_of_neg (by simp [slash])]
  rw [kept, mem_takeWhile_filter (p := (!isTabOrNewline ·)) rfl
    skipped_goes] at userInfo
  have trimmed : (lead ++ (scheme ++ ':' :: '/' :: '/' :: authority)).dropWhile
      isSpace = scheme ++ ':' :: '/' :: '/' :: authority := by
    rw [List.dropWhile_append_of_pos fun letter member =>
      (plain.spaces letter member).1]
    obtain ⟨first, rest, rfl, letter⟩ := plain.first
    rw [List.cons_append,
      List.dropWhile_cons_of_neg (by simp [(letter_notSpace letter).1])]
  simp only [hasAuthorityUserInfo, trimmed,
    schemeAuthority_spelled plain.letters plain.first]
  simpa using userInfo

/-! ## Matching -/

theorem upperHex_line {letter : Char}
    (line : lineTerminator letter = false) :
    lineTerminator (upperHex letter) = false := by
  unfold upperHex
  split
  · next lower =>
      simp only [isLowerHex, List.contains_eq_mem, List.mem_cons,
        List.not_mem_nil, or_false, decide_eq_true_eq] at lower
      rcases lower with rfl | rfl | rfl | rfl | rfl | rfl <;> rfl
  · exact line

theorem uppercase_line {text : Text}
    (line : ∀ letter ∈ text, lineTerminator letter = false) :
    ∀ letter ∈ uppercasePercentEscapes text,
      lineTerminator letter = false := by
  induction text using uppercasePercentEscapes.induct with
  | case1 high low rest hex induction =>
      rw [uppercasePercentEscapes, if_pos hex]
      simp only [List.mem_cons, forall_eq_or_imp] at line ⊢
      exact ⟨line.1, upperHex_line line.2.1, upperHex_line line.2.2.1,
        induction line.2.2.2⟩
  | case2 high low rest plain induction =>
      rw [uppercasePercentEscapes, if_neg plain]
      rw [List.forall_mem_cons] at line ⊢
      exact ⟨line.1, induction line.2⟩
  | case3 letter rest other induction =>
      rw [uppercasePercentEscapes]
      · rw [List.forall_mem_cons] at line ⊢
        exact ⟨line.1, induction line.2⟩
      · exact other
  | case4 => simp [uppercasePercentEscapes]

theorem matchesPatternHost_iff {pattern : PatternHost} {host : Text} :
    matchesPatternHost pattern host = true ↔ Covers pattern host := by
  cases pattern with
  | any => simp [matchesPatternHost, Covers]
  | exact' value => simp [matchesPatternHost, Covers]
  | subdomain value =>
      simp only [matchesPatternHost, Covers, Bool.or_eq_true, beq_iff_eq,
        List.isSuffixOf_iff_suffix, List.IsSuffix]
      simp [eq_comm]

theorem schemeFits_iff {scheme : PatternScheme} {protocol : Text} :
    schemeFits scheme protocol = true ↔
      scheme = .any ∨ protocol = schemeText scheme ++ [':'] := by
  cases scheme <;> simp [schemeFits, schemeText, httpProtocol, httpsProtocol]

variable {parseUrl : Text → Option Url}

theorem matchesPattern_iff {pattern : HostPermissionPattern} {url : Text} :
    matchesPattern parseUrl pattern url = true ↔
      hasAuthorityUserInfo url = false ∧ ∃ parsed,
        parseUrl url = some parsed ∧ IsHttp parsed ∧
        parsed.username = [] ∧ parsed.password = [] ∧
        schemeFits pattern.scheme parsed.protocol = true ∧
        ∃ host, canonicalUrlHost parsed.hostname = some host ∧
          matchesPatternHost pattern.host host = true ∧
          test pattern.pathExpression (uppercasePercentEscapes
            (parsed.pathname ++ parsed.search)) = true := by
  unfold matchesPattern
  cases hasAuthorityUserInfo url with
  | true => simp
  | false =>
      cases parseUrl url with
      | none => simp
      | some parsed =>
          simp [IsHttp, Option.any_eq_true, and_assoc]

/-- The answer is what the grammar says. -/
theorem answer_iff (whatwg : Whatwg parseUrl) {pattern url : Text}
    (readable : Readable parseUrl url) :
    answer parseUrl pattern url = true ↔
      ∃ scheme host path parsed,
        Permits parseUrl pattern url scheme host path parsed := by
  constructor
  · intro answered
    unfold answer at answered
    split at answered
    · cases answered
    · next pattern' found =>
        obtain ⟨path, written, expresses⟩ := parse_written found
        obtain ⟨unseen, parsed, parses, http, user, password, fits, value,
          canonical, covers, tested⟩ := matchesPattern_iff.mp answered
        refine ⟨pattern'.scheme, pattern'.host, path, parsed, {
          written := written
          parses := parses
          http := http
          scheme := schemeFits_iff.mp fits
          noUserInfo := ?_
          host := ⟨value, canonical, matchesPatternHost_iff.mp covers⟩
          path := (expresses _
            (uppercase_line (whatwg.line url parsed parses http))).mp tested
        }⟩
        intro userInfo
        rcases readable with plain | none' | ⟨parsed', parses', seen⟩
        · obtain ⟨lead, scheme, authority, rfl, plain⟩ := plain
          rw [plain_userInfo plain userInfo] at unseen
          cases unseen
        · exact none' userInfo
        · rw [parses] at parses'
          cases parses'
          rcases seen with seen | seen
          · exact seen user
          · exact seen password
  · rintro ⟨scheme, host, path, parsed, permits⟩
    obtain ⟨expression, found, expresses⟩ := written_parse permits.written
    obtain ⟨user, password⟩ := whatwg.userInfo url parsed permits.parses
      permits.http permits.noUserInfo
    obtain ⟨value, canonical, covers⟩ := permits.host
    unfold answer
    rw [found]
    refine matchesPattern_iff.mpr ⟨?_, parsed, permits.parses, permits.http,
      user, password, schemeFits_iff.mpr permits.scheme, value, canonical,
      matchesPatternHost_iff.mpr covers, ?_⟩
    · cases sees : hasAuthorityUserInfo url with
      | false => rfl
      | true =>
          exact absurd (userInfo_parsed
            (whatwg.scheme url parsed permits.parses) sees)
            permits.noUserInfo
    · exact (expresses _ (uppercase_line
        (whatwg.line url parsed permits.parses permits.http))).mpr permits.path

def hostRoot : Text :=
  hostUrl ['h']

/-- `http://h/%2f` -/
def escapedSlash : Text :=
  hostRoot ++ ['%', '2', 'f']

/-- `http://h/*2f` -/
def starPattern : Text :=
  hostRoot ++ ['*', '2', 'f']

def hostParts (path : Text) : Url where
  protocol := httpProtocol
  username := []
  password := []
  hostname := ['h']
  port := []
  pathname := path
  search := []

/-- A parser that knows two URLs. -/
def twoUrls (url : Text) : Option Url :=
  if url = hostRoot then some (hostParts ['/'])
  else if url = escapedSlash then some (hostParts ['/', '%', '2', 'f'])
  else none

theorem twoUrls_cases {url : Text} {parsed : Url}
    (parses : twoUrls url = some parsed) :
    (url = hostRoot ∧ parsed = hostParts ['/']) ∨
      (url = escapedSlash ∧ parsed = hostParts ['/', '%', '2', 'f']) := by
  unfold twoUrls at parses
  split at parses
  · next root =>
      cases parses
      exact Or.inl ⟨root, rfl⟩
  · split at parses
    · next escaped =>
        cases parses
        exact Or.inr ⟨escaped, rfl⟩
    · cases parses

theorem twoUrls_whatwg : Whatwg twoUrls where
  scheme url parsed parses := by
    rcases twoUrls_cases parses with ⟨rfl, rfl⟩ | ⟨rfl, rfl⟩
    · exact ⟨_, _, rfl, rfl⟩
    · exact ⟨_, _, rfl, rfl⟩
  userInfo url parsed parses _ _ := by
    rcases twoUrls_cases parses with ⟨rfl, rfl⟩ | ⟨rfl, rfl⟩
    · exact ⟨rfl, rfl⟩
    · exact ⟨rfl, rfl⟩
  line url parsed parses _ := by
    have all : ∀ text : Text, text.all (!lineTerminator ·) = true →
        ∀ letter ∈ text, lineTerminator letter = false := by
      intro text all letter member
      simpa using List.all_eq_true.mp all letter member
    rcases twoUrls_cases parses with ⟨rfl, rfl⟩ | ⟨rfl, rfl⟩
    · exact all _ rfl
    · exact all _ rfl

end Motrix.HostPattern
