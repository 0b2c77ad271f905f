import Motrix.Log.LogText

/-!
# URLs in logged texts

A URL by its parts, as it is written.  What is logged of it does not depend on
its user, password and fragment, nor on the values of sensitive names in its
query, whether it is a value of its own or stands in a longer text.
-/

namespace Motrix.LogRedact

open List Lib.AsciiUnits

/-- The parts of a written URL; the port belongs to the host. -/
structure UrlText where
  scheme : Text
  userinfo : Option Text
  host : Text
  path : Text
  query : Option Text
  fragment : Option Text

def schemeNames : List Text :=
  ["http", "https", "ftp", "sftp", "ws", "wss"].map units

/-- No white space, no control character, no backslash, and nothing that ends
a URL in a text. -/
def isPlainUnit (unit : UInt16) : Bool :=
  0x20 < unit && !endsUrl unit && unit != 0x5c

namespace UrlText

def authority (url : UrlText) : Text :=
  (url.userinfo.map (· ++ [0x40])).getD [] ++ url.host

def behindPath (url : UrlText) : Text :=
  (url.query.map (0x3f :: ·)).getD [] ++
    (url.fragment.map (0x23 :: ·)).getD []

def text (url : UrlText) : Text :=
  url.scheme ++ 0x3a :: 0x2f :: 0x2f ::
    (url.authority ++ (url.path ++ url.behindPath))

/-- A URL that is written plainly and short enough to be parsed. -/
structure Plain (url : UrlText) : Prop where
  scheme : url.scheme.map lowerAscii ∈ schemeNames
  host : url.host ≠ []
  hostAt : 0x40 ∉ url.host
  authority : ∀ unit ∈ url.authority, endsAuthority unit = false
  rooted : ∀ unit ∈ url.path.head?, unit = 0x2f
  path : ∀ unit ∈ url.path, endsPath unit = false
  query : ∀ query ∈ url.query, 0x23 ∉ query
  units : ∀ unit ∈ url.text, isPlainUnit unit = true
  length : url.text.length ≤ maxParseableLocationChars

def isPlain (url : UrlText) : Bool :=
  schemeNames.contains (url.scheme.map lowerAscii) && !url.host.isEmpty &&
    !url.host.contains 0x40 && url.authority.all (!endsAuthority ·) &&
    url.path.head?.all (· == 0x2f) && url.path.all (!endsPath ·) &&
    url.query.all (!·.contains 0x23) && url.text.all isPlainUnit &&
    decide (url.text.length ≤ maxParseableLocationChars)

theorem Plain.of_isPlain {url : UrlText} (checked : url.isPlain = true) :
    url.Plain := by
  simp only [isPlain, Bool.and_eq_true, Bool.not_eq_true',
    isEmpty_eq_false_iff, contains_eq_mem, decide_eq_false_iff_not,
    decide_eq_true_eq, all_eq_true, Option.all_eq_true, beq_iff_eq]
    at checked
  obtain ⟨⟨⟨⟨⟨⟨⟨⟨scheme, host⟩, hostAt⟩, authority⟩, rooted⟩, path⟩, query⟩,
    units⟩, length⟩ := checked
  exact
    { scheme := scheme
      host := host
      hostAt := hostAt
      authority := authority
      rooted := rooted
      path := path
      query := query
      units := units
      length := length }

end UrlText

/-! ## Letters and lists -/

/-- What ends a URL is no letter, digit or low line. -/
theorem endsUrl_toNat {unit : UInt16} (ends : endsUrl unit = true) :
    unit.toNat < 0x30 ∨ unit.toNat ∈ [0x3c, 0x3e, 0x60] ∨
      0x7a < unit.toNat := by
  simp only [endsUrl, isWhiteSpace, Bool.or_eq_true, Bool.and_eq_true,
    decide_eq_true_eq, contains_eq_mem, UInt16.le_iff_toNat_le] at ends
  rcases ends with ((⟨_, upper⟩ | ⟨lower, _⟩) | listed) | listed
  · exact .inl (by simp at upper; omega)
  · exact .inr (.inr (by simp at lower; omega))
  · simp only [mem_cons, not_mem_nil, or_false] at listed
    rcases listed with rfl | rfl | rfl | rfl | rfl | rfl | rfl | rfl | rfl <;>
      decide
  · simp only [mem_cons, not_mem_nil, or_false] at listed
    rcases listed with rfl | rfl | rfl | rfl <;> decide

theorem endsUrl_lowerAscii {unit : UInt16} (ends : endsUrl unit = true) :
    lowerAscii unit = unit := by
  have apart := endsUrl_toNat ends
  have kept : isUpper unit = false := by
    simp [isUpper, UInt16.le_iff_toNat_le] at apart ⊢
    omega
  simp [lowerAscii, kept]

theorem endsUrl_isWord {unit : UInt16} (ends : endsUrl unit = true) :
    isWord unit = false := by
  have apart := endsUrl_toNat ends
  have low : unit ≠ 0x5f := by
    rintro rfl
    simp at apart
  simp [isWord, isLower, isUpper, isDigit, low, UInt16.le_iff_toNat_le]
    at apart ⊢
  omega

/-! ## The parts of a written URL -/

theorem schemeNames_lower :
    ∀ name ∈ schemeNames, (name.all isLower && !name.isEmpty) = true := by
  decide +kernel

theorem schemeNames_kept :
    ∀ name ∈ schemeNames, name.map lowerAscii = name := by
  decide +kernel

theorem urlSchemes_names :
    urlSchemes = schemeNames.map (· ++ [0x3a, 0x2f, 0x2f]) := by
  decide +kernel

theorem loggedProtocols_names :
    loggedProtocols = schemeNames.map (· ++ [0x3a]) := by
  decide +kernel

namespace UrlText

variable {url : UrlText}

theorem Plain.scheme_letter (plain : url.Plain) :
    ∀ unit ∈ url.scheme, (isLower unit || isUpper unit) = true := by
  intro unit member
  have lower := schemeNames_lower _ plain.scheme
  simp only [Bool.and_eq_true, all_eq_true] at lower
  exact lowerAscii_letter (lower.1 _ (mem_map_of_mem member))

theorem Plain.scheme_ne (plain : url.Plain) : url.scheme ≠ [] := by
  intro empty
  have lower := schemeNames_lower _ plain.scheme
  simp [empty] at lower

theorem Plain.authority_ne (plain : url.Plain) : url.authority ≠ [] := by
  have host := plain.host
  simp [UrlText.authority, host]

theorem Plain.behindScheme_text (plain : url.Plain) :
    behindScheme url.text =
      some (url.authority ++ (url.path ++ url.behindPath)) := by
  obtain ⟨first, others, scheme⟩ := exists_cons_of_ne_nil plain.scheme_ne
  have letters := plain.scheme_letter
  rw [scheme, forall_mem_cons] at letters
  have units : ∀ unit ∈ others, isSchemeUnit unit = true :=
    fun unit member => letter_schemeUnit (letters.2 unit member)
  rw [UrlText.text, scheme, behindScheme_scheme letters.1 units]

/-- What stands behind the authority starts where an authority ends. -/
theorem Plain.behind_starts (plain : url.Plain) :
    ∀ unit ∈ (url.path ++ url.behindPath).head?,
      endsAuthority unit = true := by
  intro unit head
  have rooted := plain.rooted
  cases path : url.path with
  | cons first others =>
      rw [path] at head rooted
      simp only [cons_append, head?_cons, Option.mem_def,
        Option.some.injEq, forall_eq'] at head rooted
      subst head
      rw [rooted]
      rfl
  | nil =>
      rw [path] at head
      cases query : url.query <;> cases fragment : url.fragment <;>
        simp [behindPath, query, fragment] at head <;> subst head <;> rfl

theorem behindPath_starts :
    ∀ unit ∈ url.behindPath.head?, endsPath unit = true := by
  intro unit head
  cases query : url.query <;> cases fragment : url.fragment <;>
    simp [behindPath, query, fragment] at head <;> subst head <;> rfl

end UrlText

theorem isLineTerminator_plain {unit : UInt16}
    (plain : isPlainUnit unit = true) : isLineTerminator unit = false := by
  by_contra terminator
  simp only [isLineTerminator, contains_eq_mem, mem_cons, not_mem_nil,
    or_false, Bool.not_eq_false, decide_eq_true_eq] at terminator
  rcases terminator with rfl | rfl | rfl | rfl <;>
    exact absurd plain (by decide)

namespace UrlText

variable {url : UrlText}

theorem queryPart_behindPath (noHash : ∀ query ∈ url.query, 0x23 ∉ query)
    (plain : ∀ unit ∈ url.behindPath, isLineTerminator unit = false) :
    queryPart url.behindPath = some url.query := by
  have noLine : ∀ part : Text, (∀ unit ∈ part, unit ∈ url.behindPath) →
      part.any isLineTerminator = false := by
    intro part inside
    simpa using fun unit member => plain unit (inside unit member)
  cases found : url.query with
  | none =>
      have whole := noLine _ fun _ member => member
      cases fragment : url.fragment <;>
        simp_all [behindPath, queryPart]
  | some query =>
      have absent : ∀ unit ∈ query, decide (unit ≠ 0x23) = true := by
        intro unit member
        simpa using ne_of_mem_of_not_mem member (noHash query found)
      have behind : url.behindPath =
          0x3f :: (query ++ (url.fragment.map (0x23 :: ·)).getD []) := by
        simp [behindPath, found]
      have rest := noLine
        ((query ++ (url.fragment.map (0x23 :: ·)).getD []).dropWhile
          (· ≠ 0x23)) (by
        intro unit member
        rw [behind]
        exact mem_cons_of_mem _ ((dropWhile_suffix _).subset member))
      rw [behind, queryPart, rest, takeWhile_append_of_pos absent]
      cases url.fragment <;> simp

theorem Plain.behindPath_units (plain : url.Plain) :
    ∀ unit ∈ url.behindPath, isLineTerminator unit = false := by
  intro unit member
  refine isLineTerminator_plain (plain.units unit ?_)
  simp [UrlText.text, member]

theorem Plain.urlParts_text (plain : url.Plain) :
    urlParts url.text = some (url.path, url.query) := by
  have suffix := dropWhile_until plain.authority plain.behind_starts
  have behind := dropWhile_until plain.path url.behindPath_starts
  have path := takeWhile_until plain.path url.behindPath_starts
  have query := queryPart_behindPath plain.query plain.behindPath_units
  simp [urlParts, plain.behindScheme_text, suffix, behind, path, query]

end UrlText

/-! ## Parsing -/

/-- What the parser is relied upon for: it keeps the scheme, and whether a URL
parses and to which host is up to scheme and host. -/
structure ParsesHost (parseUrl : Text → Option Url) : Prop where
  protocol : ∀ url : UrlText, url.Plain →
    ∀ parsed ∈ parseUrl url.text,
      parsed.protocol = url.scheme.map lowerAscii ++ [0x3a]
  host : ∀ url other : UrlText, url.Plain → other.Plain →
    url.scheme = other.scheme → url.host = other.host →
      (parseUrl url.text).map Url.host = (parseUrl other.text).map Url.host

/-- Queries that differ in the values of sensitive names. -/
def SimilarPart (part other : Text) : Prop :=
  part = other ∨
    (0x3d ∈ part ∧ 0x3d ∈ other ∧
      part.takeWhile (· ≠ 0x3d) = other.takeWhile (· ≠ 0x3d) ∧
      isSensitiveQueryKey (part.takeWhile (· ≠ 0x3d)) = true)

def SimilarQuery (query other : Text) : Prop :=
  Forall₂ SimilarPart (query.splitOn 0x26) (other.splitOn 0x26)

/-- URLs that differ in user and password, in the fragment and in the values
of sensitive names. -/
structure UrlText.Similar (url other : UrlText) : Prop where
  scheme : url.scheme = other.scheme
  host : url.host = other.host
  path : url.path = other.path
  query : Option.Rel SimilarQuery url.query other.query

def SimilarUrl (raw other : Text) : Prop :=
  ∃ url url' : UrlText, url.Plain ∧ url'.Plain ∧ url.Similar url' ∧
    raw = url.text ∧ other = url'.text

theorem SimilarPart.redacted {part other : Text}
    (similar : SimilarPart part other) (strict : Bool) :
    redactPart strict part = redactPart strict other := by
  rcases similar with rfl | ⟨value, otherValue, key, sensitive⟩
  · rfl
  · have shown : ∀ part : Text, 0x3d ∈ part →
        isSensitiveQueryKey (part.takeWhile (· ≠ 0x3d)) = true →
        redactPart strict part =
          part.takeWhile (· ≠ 0x3d) ++ 0x3d :: LogRedact.redacted := by
      intro part value sensitive
      have nonempty : part ≠ [] := ne_nil_of_mem value
      simp only [redactPart, nonempty, ↓reduceIte, contains_eq_mem, value,
        decide_true, not_true_eq_false, sensitive, Bool.or_true]
    rw [shown part value sensitive, shown other otherValue (key ▸ sensitive),
      key]

theorem map_eq_of_forall₂ {α β : Type} {related : α → α → Prop}
    {shown : α → β} {values others : List α}
    (pairs : Forall₂ related values others)
    (same : ∀ value other, related value other →
      shown value = shown other) :
    values.map shown = others.map shown := by
  induction pairs with
  | nil => rfl
  | cons head tail induction => simp [same _ _ head, induction]

theorem SimilarQuery.redacted {query other : Text}
    (similar : SimilarQuery query other) (strict : Bool) :
    redactQuery query strict = redactQuery other strict := by
  rw [redactQuery, redactQuery, map_eq_of_forall₂ similar
    fun _ _ part => SimilarPart.redacted part strict]

/-- What is shown of a URL on a host. -/
def UrlText.shown (url : UrlText) (strict : Bool) (host : Text) : Text :=
  truncateLogText (url.scheme.map lowerAscii ++ [0x3a] ++ [0x2f, 0x2f] ++
    host ++ (if url.path = [] then [0x2f] else url.path) ++
    (url.query.map fun query => 0x3f :: redactQuery query strict).getD [])

theorem UrlText.Similar.shown {url other : UrlText}
    (similar : url.Similar other) (strict : Bool) :
    url.shown strict = other.shown strict := by
  have query : (url.query.map fun query => 0x3f :: redactQuery query strict) =
      other.query.map fun query => 0x3f :: redactQuery query strict := by
    have pair := similar.query
    generalize url.query = query, other.query = query' at pair
    cases pair with
    | some query => simp [SimilarQuery.redacted query strict]
    | none => rfl
  funext host
  simp only [UrlText.shown, similar.scheme, similar.path, query]

section Parser

variable {parseUrl : Text → Option Url}

theorem UrlText.Plain.redactUrl_text {url : UrlText} (plain : url.Plain)
    (parses : ParsesHost parseUrl) (strict : Bool) :
    redactUrl parseUrl url.text strict =
      (((parseUrl url.text).map Url.host).map (url.shown strict)).getD
        unparseableUrl := by
  have short := Nat.not_lt.mpr plain.length
  cases parsed : parseUrl url.text with
  | none => simp [redactUrl, short, parsed]
  | some parsedUrl =>
      have protocol := parses.protocol url plain parsedUrl parsed
      have lower : (parsedUrl.protocol).map lowerAscii =
          url.scheme.map lowerAscii ++ [0x3a] := by
        rw [protocol, map_append, schemeNames_kept _ plain.scheme]
        rfl
      have logged : loggedProtocols.contains
          (url.scheme.map lowerAscii ++ [0x3a]) = true := by
        rw [loggedProtocols_names]
        simpa using plain.scheme
      simp only [redactUrl, short, ↓reduceIte, parsed, lower, logged,
        plain.urlParts_text, UrlText.shown, Option.map_some, Option.getD_some]
      cases url.query <;> simp

theorem SimilarUrl.redacted {raw other : Text}
    (similar : SimilarUrl raw other) (parses : ParsesHost parseUrl)
    (strict : Bool) :
    redactUrl parseUrl raw strict = redactUrl parseUrl other strict := by
  obtain ⟨url, url', plain, plain', parts, rfl, rfl⟩ := similar
  rw [plain.redactUrl_text parses, plain'.redactUrl_text parses,
    parts.shown strict,
    parses.host url url' plain plain' parts.scheme parts.host]

/-! ## Longer texts -/

/-- Texts with URLs set off by white space or quotes, the URLs alike. -/
inductive SimilarText : Text → Text → Prop where
  | same (text : Text) : SimilarText text text
  | url {raw other : Text} (similar : SimilarUrl raw other) :
      SimilarText raw other
  | joined {before before' behind behind' : Text} {between : UInt16}
      (ends : endsUrl between = true) (first : SimilarText before before')
      (second : SimilarText behind behind') :
      SimilarText (before ++ between :: behind)
        (before' ++ between :: behind')

theorem urlSchemes_plain :
    ∀ scheme ∈ urlSchemes, scheme.all (!endsUrl ·) = true := by
  decide +kernel

/-- A scheme never reaches over what ends a URL. -/
theorem scheme_before {scheme : Text} (known : scheme ∈ urlSchemes)
    {between : UInt16} (ends : endsUrl between = true) (before behind : Text) :
    (scheme == ((before ++ between :: behind).take scheme.length).map
      lowerAscii) = (scheme == (before.take scheme.length).map lowerAscii) := by
  by_cases inside : scheme.length ≤ before.length
  · rw [take_append_of_le_length inside]
  · have apart : scheme ≠ (before.take scheme.length).map lowerAscii := by
      intro equal
      have length := congrArg List.length equal
      simp at length
      omega
    have reached : scheme ≠ ((before ++ between :: behind).take
        scheme.length).map lowerAscii := by
      intro equal
      have member : lowerAscii between ∈ scheme := by
        rw [equal]
        refine mem_map_of_mem ?_
        rw [take_append]
        refine mem_append_right _ ?_
        obtain ⟨count, remaining⟩ : ∃ count,
            scheme.length - before.length = count + 1 :=
          ⟨scheme.length - before.length - 1, by omega⟩
        simp [remaining]
      have plain := all_eq_true.mp (urlSchemes_plain scheme known) _ member
      simp [endsUrl_lowerAscii ends, ends] at plain
    rw [beq_false_of_ne apart, beq_false_of_ne reached]

theorem find?_congr {α : Type} {first second : α → Bool} {values : List α}
    (same : ∀ value ∈ values, first value = second value) :
    values.find? first = values.find? second := by
  induction values with
  | nil => rfl
  | cons head tail induction =>
      rw [forall_mem_cons] at same
      rw [find?_cons, find?_cons, same.1, induction same.2]

theorem urlAt_before {between : UInt16} (ends : endsUrl between = true)
    (before behind : Text) :
    urlAt (before ++ between :: behind) =
      (urlAt before).map fun found =>
        (found.1, found.2 ++ between :: behind) := by
  have schemes := find?_congr fun _ known =>
    scheme_before known ends before behind
  simp only [urlAt, schemes]
  cases found : urlSchemes.find? fun scheme =>
      scheme == (before.take scheme.length).map lowerAscii with
  | none => rfl
  | some scheme =>
      have inside : scheme.length ≤ before.length := by
        have equal : scheme = (before.take scheme.length).map lowerAscii := by
          simpa using find?_some found
        have length := congrArg List.length equal
        simp at length
        omega
      simp only [take_append_of_le_length inside,
        drop_append_of_le_length inside, takeWhile_stop ends,
        dropWhile_stop ends]
      split
      · rfl
      · rfl

theorem urlAt_ends {between : UInt16} (ends : endsUrl between = true)
    (behind : Text) : urlAt (between :: behind) = none := by
  have empty : urlAt [] = none := rfl
  simpa [empty] using urlAt_before ends [] behind

theorem urlAt_parts {text url behind : Text}
    (found : urlAt text = some (url, behind)) :
    url ++ behind = text ∧ url ≠ [] := by
  unfold urlAt at found
  split at found
  · cases found
  · dsimp only at found
    split at found
    · cases found
    · rename_i body
      obtain ⟨rfl, rfl⟩ := Prod.mk.inj (Option.some.inj found)
      refine ⟨?_, append_ne_nil_of_right_ne_nil _ body⟩
      rw [append_assoc, takeWhile_append_dropWhile, take_append_drop]

theorem urlAt_shorter {text url behind : Text}
    (found : urlAt text = some (url, behind)) :
    behind.length < text.length := by
  obtain ⟨rfl, nonempty⟩ := urlAt_parts found
  have least := length_pos_of_ne_nil nonempty
  simp [least]

theorem urlAt_next {inWord : Bool} {unit : UInt16} {rest : Text}
    {found : Text × Text}
    (next : (if inWord = true then none else urlAt (unit :: rest)) =
      some found) :
    found.2.length ≤ rest.length := by
  cases inWord with
  | true => cases next
  | false => exact Nat.le_of_lt_succ (urlAt_shorter next)

/-- Once there is a step for every unit, more of them change nothing. -/
theorem replaceUrls_steps (strict : Bool) :
    ∀ (steps more : Nat) (inWord : Bool) (text : Text),
      text.length ≤ steps → text.length ≤ more →
        replaceUrls parseUrl strict steps inWord text =
          replaceUrls parseUrl strict more inWord text := by
  intro steps
  induction steps with
  | zero =>
      intro more inWord text enough _
      obtain rfl := length_eq_zero_iff.mp (Nat.le_zero.mp enough)
      cases more <;> rfl
  | succ steps induction =>
      intro more inWord text enough enoughMore
      cases text with
      | nil => cases more <;> rfl
      | cons unit rest =>
          cases more with
          | zero => simp at enoughMore
          | succ more =>
              simp only [length_cons, Nat.add_le_add_iff_right]
                at enough enoughMore
              simp only [replaceUrls]
              cases next : if inWord = true then none
                  else urlAt (unit :: rest) with
              | none => rw [induction more _ rest enough enoughMore]
              | some found =>
                  obtain ⟨url, behind⟩ := found
                  have shorter := urlAt_next next
                  dsimp only at shorter ⊢
                  rw [induction more _ behind (by omega) (by omega)]

theorem replaceUrls_between {between : UInt16}
    (ends : endsUrl between = true) (strict : Bool) {behind : Text}
    {steps rest : Nat} (enough : behind.length < steps)
    (enoughRest : behind.length ≤ rest) (inWord : Bool) :
    replaceUrls parseUrl strict steps inWord (between :: behind) =
      between :: replaceUrls parseUrl strict rest false behind := by
  cases steps with
  | zero => omega
  | succ steps =>
      simp only [replaceUrls, urlAt_ends ends, ite_self, endsUrl_isWord ends]
      rw [replaceUrls_steps strict steps rest false behind (by omega)
        enoughRest]

/-- The text behind what ends a URL is redacted on its own, whatever stands
in front of it. -/
theorem replaceUrls_before {between : UInt16}
    (ends : endsUrl between = true) (strict : Bool) {behind : Text}
    {rest : Nat} (enoughRest : behind.length ≤ rest) :
    ∀ (own steps : Nat) (inWord : Bool) (before : Text),
      before.length + behind.length < steps → before.length ≤ own →
        replaceUrls parseUrl strict steps inWord
            (before ++ between :: behind) =
          replaceUrls parseUrl strict own inWord before ++
            between :: replaceUrls parseUrl strict rest false behind := by
  intro own
  induction own with
  | zero =>
      intro steps inWord before enough none
      obtain rfl := length_eq_zero_iff.mp (Nat.le_zero.mp none)
      exact replaceUrls_between ends strict (by simpa using enough)
        enoughRest inWord
  | succ own induction =>
      intro steps inWord before enough enoughOwn
      cases before with
      | nil =>
          exact replaceUrls_between ends strict (by simpa using enough)
            enoughRest inWord
      | cons unit before =>
          cases steps with
          | zero => omega
          | succ steps =>
              simp only [length_cons, Nat.add_le_add_iff_right]
                at enough enoughOwn
              have next : (if inWord = true then none
                  else urlAt (unit :: (before ++ between :: behind))) =
                  (if inWord = true then none
                    else urlAt (unit :: before)).map fun found =>
                      (found.1, found.2 ++ between :: behind) := by
                cases inWord with
                | true => rfl
                | false => exact urlAt_before ends (unit :: before) behind
              simp only [cons_append, replaceUrls, next]
              cases found : if inWord = true then none
                  else urlAt (unit :: before) with
              | none =>
                  rw [Option.map_none]
                  dsimp only
                  rw [induction steps _ before (by omega) enoughOwn,
                    cons_append]
              | some parts =>
                  obtain ⟨url, others⟩ := parts
                  have shorter := urlAt_next found
                  rw [Option.map_some]
                  dsimp only at shorter ⊢
                  rw [induction steps _ others (by omega) (by omega),
                    append_assoc]

theorem urlSchemes_apart :
    ∀ scheme ∈ urlSchemes, ∀ other ∈ urlSchemes,
      scheme <+: other → scheme = other := by
  decide +kernel

/-- The scheme that a text starts with is found, as it is the only one. -/
theorem urlSchemes_find {scheme text : Text} (known : scheme ∈ urlSchemes)
    (starts : scheme <+: text.map lowerAscii) :
    (urlSchemes.find? fun scheme =>
      scheme == (text.take scheme.length).map lowerAscii) = some scheme := by
  have taken : ∀ other : Text, other <+: text.map lowerAscii ↔
      (other == (text.take other.length).map lowerAscii) = true := by
    intro other
    rw [beq_iff_eq, map_take, prefix_iff_eq_take]
  cases found : urlSchemes.find? fun scheme =>
      scheme == (text.take scheme.length).map lowerAscii with
  | none =>
      rw [find?_eq_none] at found
      exact absurd ((taken scheme).mp starts) (found scheme known)
  | some other =>
      have otherKnown := mem_of_find?_eq_some found
      have otherStarts : other <+: text.map lowerAscii := by
        rw [taken]
        simpa using find?_some found
      rcases prefix_or_prefix_of_prefix starts otherStarts with before | before
      · rw [urlSchemes_apart scheme known other otherKnown before]
      · rw [urlSchemes_apart other otherKnown scheme known before]

theorem UrlText.Plain.urlAt_text {url : UrlText} (plain : url.Plain) :
    urlAt url.text = some (url.text, []) := by
  have known : url.scheme.map lowerAscii ++ [0x3a, 0x2f, 0x2f] ∈
      urlSchemes := by
    rw [urlSchemes_names]
    exact mem_map_of_mem plain.scheme
  have starts : url.scheme.map lowerAscii ++ [0x3a, 0x2f, 0x2f] <+:
      url.text.map lowerAscii := by
    refine ⟨(url.authority ++ (url.path ++ url.behindPath)).map lowerAscii, ?_⟩
    simp [UrlText.text]
    decide
  have behind : url.text.drop (url.scheme.map lowerAscii ++
      [0x3a, 0x2f, 0x2f]).length =
      url.authority ++ (url.path ++ url.behindPath) := by
    have parts : url.text = (url.scheme ++ [0x3a, 0x2f, 0x2f]) ++
        (url.authority ++ (url.path ++ url.behindPath)) := by
      simp [UrlText.text]
    rw [parts]
    exact drop_left' (by simp)
  have kept : ∀ unit ∈ url.authority ++ (url.path ++ url.behindPath),
      (!endsUrl unit) = true := by
    intro unit member
    have unitPlain := plain.units unit (by
      simp only [UrlText.text, mem_append, mem_cons]
      exact .inr (.inr (.inr (.inr (by simpa using member)))))
    simp [isPlainUnit] at unitPlain
    simp [unitPlain]
  have nonempty : url.authority ++ (url.path ++ url.behindPath) ≠ [] :=
    append_ne_nil_of_left_ne_nil plain.authority_ne _
  simp only [urlAt, urlSchemes_find known starts, behind,
    takeWhile_eq_self_iff.mpr kept, dropWhile_eq_nil_iff.mpr kept, nonempty,
    ↓reduceIte]
  rw [← behind, take_append_drop]

/-- A URL alone is taken as a whole. -/
theorem UrlText.Plain.replaceUrls_text {url : UrlText} (plain : url.Plain)
    (strict : Bool) {steps : Nat} (enough : url.text.length ≤ steps) :
    replaceUrls parseUrl strict steps false url.text =
      redactUrl parseUrl url.text strict := by
  obtain ⟨unit, rest, text⟩ :=
    exists_cons_of_ne_nil (urlAt_parts plain.urlAt_text).2
  have whole := plain.urlAt_text
  rw [text] at enough whole ⊢
  cases steps with
  | zero => simp at enough
  | succ steps =>
      simp only [replaceUrls, Bool.false_eq_true, ↓reduceIte, whole]
      cases steps <;> simp [replaceUrls]

theorem SimilarText.replaced {text other : Text}
    (similar : SimilarText text other) (parses : ParsesHost parseUrl)
    (strict : Bool) :
    replaceUrls parseUrl strict text.length false text =
      replaceUrls parseUrl strict other.length false other := by
  induction similar with
  | same => rfl
  | url similar =>
      have same := similar.redacted parses strict
      obtain ⟨url, url', plain, plain', parts, rfl, rfl⟩ := similar
      rw [plain.replaceUrls_text strict (Nat.le_refl _),
        plain'.replaceUrls_text strict (Nat.le_refl _), same]
  | joined ends first second firstInduction secondInduction =>
      rw [replaceUrls_before ends strict (Nat.le_refl _) _ _ _ _
          (by simp) (Nat.le_refl _),
        replaceUrls_before ends strict (Nat.le_refl _) _ _ _ _
          (by simp) (Nat.le_refl _), firstInduction, secondInduction]

theorem SimilarText.redacted {text other : Text}
    (similar : SimilarText text other) (parses : ParsesHost parseUrl)
    (strict : Bool) :
    redactLogText parseUrl text strict =
      redactLogText parseUrl other strict := by
  simp only [redactLogText, similar.replaced parses strict]

end Parser

end Motrix.LogRedact
