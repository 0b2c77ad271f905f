import Motrix.Download.SourceText

/-!
# Admission of sources

What the URL parser is relied upon for, what an analysis comes to, and that an
accepted source is accepted again in its canonical spelling.
-/

namespace Motrix.DownloadSource

open List Lib Lib.AsciiUnits

/-! ## The URL parser -/

/-- A URL of one of the protocols that the parser is asked about. -/
structure Parsed (parseUrl : Text → Option Url) (raw scheme : Text)
    (url : Url) : Prop where
  clean : invalidUnit 0 raw = none
  named : schemeOf raw = some scheme
  web : scheme.map lowerAscii ∈ [units "http", units "https", units "ftp"]
  parsed : parseUrl raw = some url

/-- What the URL parser is relied upon for. -/
structure UrlLaws (parseUrl : Text → Option Url) : Prop where
  reparse {raw scheme : Text} {url : Url} :
    Parsed parseUrl raw scheme url → parseUrl url.href = some url
  host {raw scheme : Text} {url : Url} : Parsed parseUrl raw scheme url →
    ∃ port, url.host = url.hostname ++ port ∧
      ∀ unit ∈ port.head?, unit = 0x3a
  hostname {raw scheme : Text} {url : Url} : Parsed parseUrl raw scheme url →
    url.hostname ≠ [] ∧ url.hostname.map lowerAscii = url.hostname ∧
      (0x3a ∈ url.hostname → url.hostname.head? = some 0x5b)
  hostUnits {raw scheme : Text} {url : Url} : Parsed parseUrl raw scheme url →
    ∀ unit ∈ url.host,
      endsAuthority unit = false ∧ unit ≠ 0x40 ∧ unit ≠ 0x5c
  pathname {raw scheme : Text} {url : Url} : Parsed parseUrl raw scheme url →
    url.pathname.head? = some 0x2f ∧
      ∀ unit ∈ url.pathname, endsPath unit = false ∧ unit ≠ 0x5c
  search {raw scheme : Text} {url : Url} : Parsed parseUrl raw scheme url →
    (∀ unit ∈ url.search.head?, unit = 0x3f) ∧ url.search ≠ [0x3f] ∧
      0x23 ∉ url.search
  href {raw scheme : Text} {url : Url} : Parsed parseUrl raw scheme url →
    (∀ unit ∈ url.href, isPrintable unit = true) ∧
    ∃ userinfo query fragment : Text,
      url.href = written (scheme.map lowerAscii)
        ⟨userinfo ++ url.host, url.pathname, query, fragment⟩ ∧
      (∀ unit ∈ userinfo, endsAuthority unit = false ∧ unit ≠ 0x5c) ∧
      (∀ unit ∈ query.head?, unit = 0x3f) ∧ 0x23 ∉ query ∧
      (∀ unit ∈ fragment.head?, unit = 0x23)
  escapes {raw scheme : Text} {url : Url} : Parsed parseUrl raw scheme url →
    escaped raw = true → escaped url.href = true
  plain {raw scheme : Text} {url : Url} {parts : Parts} :
    Parsed parseUrl raw scheme url → urlParts raw = some parts →
    0x40 ∉ parts.authority → raw.any isUnescaped = false →
    parts.query ≠ [0x3f] →
      url.href = written (scheme.map lowerAscii)
        ⟨url.host, url.pathname, url.search,
          encodeUnicode parts.fragment⟩ ∧
      (url.search = [] ↔ parts.query = []) ∧
      ∀ unit ∈ url.pathname ++ url.search, isUnescaped unit = false

/-- A URL that has passed the checks of its characters. -/
structure Passed (parseUrl : Text → Option Url) (raw scheme : Text)
    (protocol : SourceProtocol) (url : Url) (parts : Parts) : Prop where
  parsed : Parsed parseUrl raw scheme url
  found : sourceProtocol (scheme.map lowerAscii) = some protocol
  whole : escaped raw = true
  split : urlParts raw = some parts
  mark : parts.query ≠ [0x3f]
  noUser : 0x40 ∉ parts.authority
  plain : raw.any isUnescaped = false

/-! ## The protocols -/

theorem sourceProtocol_text {name : Text} {protocol : SourceProtocol}
    (found : sourceProtocol name = some protocol) : protocol.text = name := by
  simpa [sourceProtocol] using find?_some found

theorem sourceProtocol_self (protocol : SourceProtocol) :
    sourceProtocol protocol.text = some protocol := by
  cases protocol <;> decide +kernel

theorem web_of_protocol {protocol : SourceProtocol}
    (web : protocol ≠ .magnet) :
    protocol.text ∈ [units "http", units "https", units "ftp"] := by
  cases protocol <;> simp [SourceProtocol.text] at web ⊢

theorem protocol_valid (protocol : SourceProtocol) :
    IsScheme protocol.text := by
  have checked : (protocol.text.all isSchemeUnit &&
      protocol.text.head?.any fun unit => isLower unit || isUpper unit) =
        true := by
    cases protocol <;> decide +kernel
  rw [Bool.and_eq_true, all_eq_true] at checked
  cases name : protocol.text with
  | nil => simp [name] at checked
  | cons first rest =>
      rw [name] at checked
      exact ⟨by simpa using checked.2, cons_ne_nil _ _, checked.1⟩

theorem protocol_lower (protocol : SourceProtocol) :
    protocol.text.map lowerAscii = protocol.text := by
  cases protocol <;> decide +kernel

/-! ## The canonical spelling -/

theorem encodeUnicode_cons {unit : UInt16} (printable : isPrintable unit = true)
    (rest : Text) :
    encodeUnicode (unit :: rest) = unit :: encodeUnicode rest := by
  have small := isPrintable_toNat printable
  unfold encodeUnicode
  rw [Utf16.codePoints_cons_alone (printable_alone printable).1,
    flatMap_cons, if_pos small]
  simp

theorem isLineTerminator_printable {unit : UInt16}
    (printable : isPrintable unit = true) : isLineTerminator unit = false := by
  by_contra terminator
  simp only [isLineTerminator, contains_eq_mem, mem_cons, not_mem_nil,
    or_false, Bool.not_eq_false, decide_eq_true_eq] at terminator
  rcases terminator with rfl | rfl | rfl | rfl <;>
    exact absurd printable (by decide)

section Canonical

variable {parseUrl : Text → Option Url} {raw scheme : Text} {url : Url}
  {parts : Parts}

def canonicalParts (url : Url) (parts : Parts) : Parts :=
  { authority := url.host
    path := url.pathname
    query := url.search
    fragment := encodeUnicode parts.fragment }

theorem fragment_starts (delimited : parts.Delimited) :
    ∀ unit ∈ (encodeUnicode parts.fragment).head?, unit = 0x23 := by
  cases fragment : parts.fragment with
  | nil => simp [encodeUnicode, Utf16.codePoints]
  | cons first rest =>
      obtain rfl : first = 0x23 := delimited.hashed first (by rw [fragment]; rfl)
      rw [encodeUnicode_cons rfl]
      simp

theorem host_ne (laws : UrlLaws parseUrl)
    (parsed : Parsed parseUrl raw scheme url) : url.host ≠ [] := by
  obtain ⟨port, host, _⟩ := laws.host parsed
  rw [host]
  exact append_ne_nil_of_left_ne_nil (laws.hostname parsed).1 _

/-- The host that is written in a canonical spelling is the parsed one. -/
theorem hostRewritten_canonical (laws : UrlLaws parseUrl)
    (parsed : Parsed parseUrl raw scheme url) :
    hostRewritten url.host url.hostname = false := by
  obtain ⟨port, host, colon⟩ := laws.host parsed
  obtain ⟨nonempty, lower, bracket⟩ := laws.hostname parsed
  obtain ⟨first, others, hostname⟩ := exists_cons_of_ne_nil nonempty
  by_cases opened : first = 0x5b
  · have read : rawHost url.host = [] ∨
        (rawHost url.host).head? = some 0x5b := by
      rw [host, hostname, opened]
      by_cases closed : 0x5d ∈ others ++ port
      · exact .inr (by simp_all [rawHost])
      · exact .inl (by simp_all [rawHost])
    rcases read with empty | bracket
    · simp [hostRewritten, empty]
    · simp [hostRewritten, bracket]
  · have apart : 0x3a ∉ url.hostname := by
      intro inside
      have first := bracket inside
      simp [hostname, opened] at first
    have kept : ∀ unit ∈ url.hostname, decide (unit ≠ 0x3a) = true :=
      fun unit member => decide_eq_true (ne_of_mem_of_not_mem member apart)
    have read : rawHost url.host = url.hostname := by
      have head : url.host.head? ≠ some 0x5b := by
        simp [host, hostname, opened]
      rw [rawHost, if_neg head, host, takeWhile_append_of_pos kept]
      cases port with
      | nil => simp
      | cons unit port =>
          obtain rfl := colon unit rfl
          simp
    simp [hostRewritten, read, lower]

theorem isUnescaped_scheme {unit : UInt16}
    (valid : isSchemeUnit unit = true) : isUnescaped unit = false := by
  by_contra unescaped
  simp only [isUnescaped, contains_eq_mem, mem_cons, not_mem_nil, or_false,
    Bool.not_eq_false, decide_eq_true_eq] at unescaped
  rcases unescaped with rfl | rfl | rfl | rfl | rfl | rfl | rfl | rfl | rfl <;>
    exact absurd valid (by decide)

theorem isUnescaped_escape {unit : UInt16}
    (escape : isEscapeUnit unit = true) : isUnescaped unit = false := by
  have reserved : [0x20, 0x3c, 0x3e, 0x22, 0x60, 0x7b, 0x7d, 0x7c,
      0x5e].all (reservedUnits.contains ·) = true := by
    decide
  refine eq_false_of_ne_true fun unescaped => ?_
  exact escapeUnit_notMem escape (contains_iff_mem.mp
    (all_eq_true.mp reserved unit (contains_iff_mem.mp unescaped)))

theorem front_noBackslash {scheme : Text} {parts : Parts}
    (valid : IsScheme scheme) (authority : ∀ unit ∈ parts.authority, unit ≠ 0x5c)
    (path : ∀ unit ∈ parts.path, unit ≠ 0x5c) :
    (front scheme parts).contains 0x5c = false := by
  have apart : 0x5c ∉ scheme := by
    intro member
    exact absurd (valid.units _ member) (by decide)
  have authority' : 0x5c ∉ parts.authority := fun member =>
    authority _ member rfl
  have path' : 0x5c ∉ parts.path := fun member => path _ member rfl
  simp [front, apart, authority', path']

namespace Passed

variable {protocol : SourceProtocol}

theorem href (passed : Passed parseUrl raw scheme protocol url parts)
    (laws : UrlLaws parseUrl) :
    url.href = written protocol.text (canonicalParts url parts) := by
  obtain ⟨href, -, -⟩ := laws.plain passed.parsed passed.split passed.noUser
    passed.plain passed.mark
  rw [sourceProtocol_text passed.found]
  exact href

theorem delimited (passed : Passed parseUrl raw scheme protocol url parts) :
    parts.Delimited :=
  (written_of_urlParts passed.parsed.named passed.split).2

theorem web (passed : Passed parseUrl raw scheme protocol url parts) :
    protocol ≠ .magnet := by
  rintro rfl
  have web := passed.parsed.web
  rw [← sourceProtocol_text passed.found] at web
  exact absurd web (by decide +kernel)

/-- The parts of the canonical spelling are printable. -/
theorem printable (passed : Passed parseUrl raw scheme protocol url parts)
    (laws : UrlLaws parseUrl) :
    ∀ unit ∈ (canonicalParts url parts).behind, isPrintable unit = true := by
  intro unit member
  refine (laws.href passed.parsed).1 unit ?_
  rw [passed.href laws, written]
  simp [member]

theorem canonical (passed : Passed parseUrl raw scheme protocol url parts)
    (laws : UrlLaws parseUrl) : (canonicalParts url parts).Delimited := by
  obtain ⟨rooted, path⟩ := laws.pathname passed.parsed
  obtain ⟨marked, _, query⟩ := laws.search passed.parsed
  exact
    { authority := fun unit member =>
        (laws.hostUnits passed.parsed unit member).1
      nonempty := host_ne laws passed.parsed
      rooted := by simp [canonicalParts, rooted]
      path := fun unit member => (path unit member).1
      marked := marked
      query := fun unit member =>
        beq_eq_false_iff_ne.mpr (ne_of_mem_of_not_mem member query)
      hashed := fragment_starts passed.delimited
      fragment := by
        rw [any_eq_false]
        intro unit member
        have shown := passed.printable laws unit (by
          simp only [Parts.behind, mem_append]
          exact .inr (.inr (.inr member)))
        simp [isLineTerminator_printable shown] }

theorem noBackslash (passed : Passed parseUrl raw scheme protocol url parts)
    (laws : UrlLaws parseUrl) :
    (structuralPart url.href).contains 0x5c = false := by
  rw [passed.href laws, structuralPart_written (protocol_valid protocol)
    (passed.canonical laws)]
  exact front_noBackslash (protocol_valid protocol)
    (fun unit member => (laws.hostUnits passed.parsed unit member).2.2)
    fun unit member => ((laws.pathname passed.parsed).2 unit member).2

theorem noUser_canonical
    (passed : Passed parseUrl raw scheme protocol url parts)
    (laws : UrlLaws parseUrl) :
    (canonicalParts url parts).authority.contains 0x40 = false := by
  refine eq_false_of_ne_true fun user => ?_
  exact (laws.hostUnits passed.parsed _ (contains_iff_mem.mp user)).2.1 rfl

theorem plain_href (passed : Passed parseUrl raw scheme protocol url parts)
    (laws : UrlLaws parseUrl) (host : url.host.any isUnescaped = false) :
    url.href.any isUnescaped = false := by
  obtain ⟨-, -, partsPlain⟩ := laws.plain passed.parsed passed.split
    passed.noUser passed.plain passed.mark
  have rawPlain : ∀ unit ∈ raw, isUnescaped unit = false := by
    simpa using passed.plain
  have hostPlain : ∀ unit ∈ url.host, isUnescaped unit = false := by
    simpa using host
  rw [any_eq_false]
  intro unit member
  rw [Bool.not_eq_true]
  simp only [passed.href laws, written, Parts.behind, mem_append, mem_cons]
    at member
  rcases member with scheme | rfl | rfl | rfl | authority | path | search |
    fragment
  · exact isUnescaped_scheme ((protocol_valid protocol).units unit scheme)
  · rfl
  · rfl
  · rfl
  · exact hostPlain unit authority
  · exact partsPlain unit (mem_append_left _ path)
  · exact partsPlain unit (mem_append_right _ search)
  · rcases mem_encodeUnicode fragment with inside | escape
    · refine rawPlain unit ?_
      rw [(written_of_urlParts passed.parsed.named passed.split).1, written]
      simp [Parts.behind, inside]
    · exact isUnescaped_escape escape

/-- There is nothing to encode in the parts of the canonical spelling. -/
theorem encoded (passed : Passed parseUrl raw scheme protocol url parts)
    (laws : UrlLaws parseUrl) {part : Text}
    (inside : ∀ unit ∈ part, unit ∈ (canonicalParts url parts).behind) :
    encodeUnicode part = part :=
  encodeUnicode_printable fun unit member =>
    passed.printable laws unit (inside unit member)

theorem analyze_href (passed : Passed parseUrl raw scheme protocol url parts)
    (laws : UrlLaws parseUrl) (host : url.host.any isUnescaped = false)
    (parseMagnet : Text → Option Bool) (protocols : List SourceProtocol) :
    analyzeDownloadSource parseUrl parseMagnet url.href protocols =
      if url.href.length > maxDownloadUrlBytes then
        reject .urlTooLong 0 url.href.length
      else if protocols.contains protocol then
        .accepted protocol url.href
          (protocol.text ++ 0x3a :: 0x2f :: 0x2f :: url.host ++
            url.pathname ++ url.search) url.host
      else reject .unsupportedProtocol 0 protocol.text.length := by
  have parsed := passed.parsed
  have href := passed.href laws
  have printable := (laws.href parsed).1
  have scheme' : schemeOf url.href = some protocol.text := by
    rw [href]
    exact schemeOf_written (protocol_valid protocol) _
  have parts' : urlParts url.href = some (canonicalParts url parts) := by
    rw [href]
    exact urlParts_written (protocol_valid protocol) (passed.canonical laws)
  have path : encodeUnicode (if (canonicalParts url parts).path = [] then
      [0x2f] else (canonicalParts url parts).path) = url.pathname := by
    have rooted : url.pathname ≠ [] := by
      intro empty
      have head := (laws.pathname parsed).1
      simp [empty] at head
    change encodeUnicode (if url.pathname = [] then _ else url.pathname) = _
    rw [if_neg rooted]
    exact passed.encoded laws fun unit member =>
      mem_append_right _ (mem_append_left _ member)
  have search : encodeUnicode (canonicalParts url parts).query =
      url.search :=
    passed.encoded laws fun unit member =>
      mem_append_right _ (mem_append_right _ (mem_append_left _ member))
  have fragment : encodeUnicode (canonicalParts url parts).fragment =
      (canonicalParts url parts).fragment :=
    passed.encoded laws fun unit member =>
      mem_append_right _ (mem_append_right _ (mem_append_right _ member))
  have noMark : (canonicalParts url parts).query ≠ [0x3f] :=
    (laws.search parsed).2.1
  have whole : badPercent 0 url.href = none :=
    badPercent_eq_none.mpr (laws.escapes parsed passed.whole)
  have source : protocol.text ++ 0x3a :: 0x2f :: 0x2f :: url.host ++
      url.pathname ++ url.search ++ (canonicalParts url parts).fragment =
      url.href := by
    rw [href]
    simp [written, Parts.behind, canonicalParts]
  simp only [analyzeDownloadSource, codePoints_printable printable, or_self,
    invalidUnit_printable printable, scheme', protocol_lower,
    sourceProtocol_self, whole]
  split
  · rfl
  · rename_i short
    by_cases allowed : protocols.contains protocol = true
    · have rewritten : ¬ (hostRewritten (canonicalParts url parts).authority
          url.hostname = true ∨ url.pathname ≠ url.pathname ∨
          (url.search ≠ [] ∧ url.search ≠ [0x3f] ∧
            url.search ≠ url.search)) := by
        simp only [ne_eq, not_true_eq_false, and_false, or_false]
        exact ne_true_of_eq_false (hostRewritten_canonical laws parsed)
      simp only [Option.filter, allowed, ↓reduceIte, passed.web, analyzeUrl,
        passed.noBackslash laws, laws.reparse parsed, parts',
        (laws.hostname parsed).1, analyzeParts, noMark,
        passed.noUser_canonical laws, passed.plain_href laws host, path,
        search, fragment, source, rewritten, short, Bool.false_eq_true]
    · simp only [Option.filter, eq_false_of_ne_true allowed,
        Bool.false_eq_true, ↓reduceIte]

end Passed

end Canonical

/-! ## What an analysis comes to -/

section Cases

variable {parseUrl : Text → Option Url} {parseMagnet : Text → Option Bool}
  {raw scheme : Text} {protocol : SourceProtocol}
  {protocols : List SourceProtocol} {result : DownloadSourceAnalysis}

def Live (result : DownloadSourceAnalysis) : Prop :=
  ∀ diagnostic, result ≠ .rejected diagnostic

/-- Up to the checks that depend on the protocol. -/
theorem analyze_cases
    (analyzed : analyzeDownloadSource parseUrl parseMagnet raw protocols =
      result) (live : Live result) :
    raw.length ≤ maxDownloadUrlBytes ∧
      Utf16.byteLength raw ≤ maxDownloadUrlBytes ∧
      invalidUnit 0 raw = none ∧ ∃ scheme protocol,
        schemeOf raw = some scheme ∧
        sourceProtocol (scheme.map lowerAscii) = some protocol ∧
        protocols.contains protocol = true ∧
        ((escaped raw = false ∧ ∃ diagnostic, result = .needsCorrection
            diagnostic [⟨.encodeLiteralCharacters, escapePercents raw⟩]) ∨
          (escaped raw = true ∧ result =
            if protocol = .magnet then analyzeMagnet parseMagnet raw scheme
            else analyzeUrl parseUrl raw scheme protocol)) := by
  unfold analyzeDownloadSource at analyzed
  split at analyzed
  · exact (live _ analyzed.symm).elim
  · rename_i short
    rw [not_or, gt_iff_lt, gt_iff_lt, not_lt, not_lt] at short
    split at analyzed
    · exact (live _ analyzed.symm).elim
    · rename_i clean
      split at analyzed
      · exact (live _ analyzed.symm).elim
      · rename_i scheme named
        split at analyzed
        · exact (live _ analyzed.symm).elim
        · rename_i protocol allowed
          rw [Option.filter_eq_some_iff] at allowed
          refine ⟨short.1, short.2, clean, scheme, protocol, named, allowed.1,
            allowed.2, ?_⟩
          split at analyzed
          · rename_i bad
            refine .inl ⟨?_, _, analyzed.symm⟩
            refine eq_false_of_ne_true fun whole => ?_
            simp [badPercent_eq_none.mpr whole] at bad
          · rename_i whole
            exact .inr ⟨badPercent_eq_none.mp whole, analyzed.symm⟩

theorem analyzeMagnet_cases {protocol : SourceProtocol}
    {sourceUrl requestUrl host : Text}
    (accepted : DownloadSourceAnalysis.accepted protocol sourceUrl requestUrl
      host = analyzeMagnet parseMagnet raw scheme) :
    (raw.drop (scheme.length + 1)).head? = some 0x3f ∧
      parseMagnet raw = some false ∧ protocol = .magnet ∧
      sourceUrl = SourceProtocol.magnet.text ++
        0x3a :: raw.drop (scheme.length + 1) ∧
      requestUrl = sourceUrl ∧ host = [] := by
  unfold analyzeMagnet at accepted
  dsimp only at accepted
  split at accepted
  · cases accepted
  · rename_i marked
    split at accepted
    · rename_i version
      cases accepted
      exact ⟨not_not.mp marked, version, rfl, rfl, rfl, rfl⟩
    · cases accepted

/-- From the backslash to the parts of a URL. -/
theorem analyzeUrl_cases
    (analyzed : result = analyzeUrl parseUrl raw scheme protocol)
    (live : Live result) :
    ((structuralPart raw).contains 0x5c = true ∧ ∃ diagnostic,
      result = .needsCorrection diagnostic
        (backslashCorrections raw scheme)) ∨
    ((structuralPart raw).contains 0x5c = false ∧ ∃ url,
      parseUrl raw = some url ∧
        (((urlParts raw = none ∨ url.hostname = []) ∧ ∃ diagnostic,
          result = .needsCorrection diagnostic (useCanonicalUrl url.href)) ∨
        ∃ parts, urlParts raw = some parts ∧
          result = analyzeParts raw scheme protocol url parts)) := by
  unfold analyzeUrl at analyzed
  split at analyzed
  · rename_i backslash
    refine .inl ⟨backslash, ?_⟩
    have offered : backslashCorrections raw scheme ≠ [] := by
      unfold backslashCorrections
      dsimp only
      split <;> exact cons_ne_nil _ _
    exact ⟨_, by rw [analyzed, failure, if_neg offered]⟩
  · rename_i backslash
    refine .inr ⟨eq_false_of_ne_true backslash, ?_⟩
    split at analyzed
    · exact (live _ analyzed).elim
    · rename_i url parsed
      refine ⟨url, parsed, ?_⟩
      split at analyzed
      · rename_i apart
        exact .inl ⟨.inl apart, _, analyzed⟩
      · rename_i parts split
        split at analyzed
        · rename_i empty
          exact .inl ⟨.inr empty, _, analyzed⟩
        · exact .inr ⟨parts, split, analyzed⟩

/-- The checks of the parts. -/
theorem analyzeParts_cases {url : Url} {parts : Parts}
    (analyzed : result = analyzeParts raw scheme protocol url parts)
    (live : Live result) :
    (parts.query = [0x3f] ∧ ∃ diagnostic, result = .needsCorrection diagnostic
      (useCanonicalUrl (dropEmptyQuery raw))) ∨
    (parts.query ≠ [0x3f] ∧ 0x40 ∉ parts.authority ∧
      ((raw.any isUnescaped = true ∧ ∃ diagnostic,
        result = .needsCorrection diagnostic
          [⟨.encodeLiteralCharacters, encodeUnescaped raw⟩]) ∨
      (raw.any isUnescaped = false ∧
        ((∃ diagnostic, result = .needsCorrection diagnostic
          (useCanonicalUrl url.href)) ∨
        ∃ sourceUrl requestUrl,
          result = .accepted protocol sourceUrl requestUrl url.host ∧
          sourceUrl = requestUrl ++ encodeUnicode parts.fragment ∧
          sourceUrl.length ≤ maxDownloadUrlBytes ∧
          requestUrl = protocol.text ++ 0x3a :: 0x2f :: 0x2f :: url.host ++
            url.pathname ++ encodeUnicode parts.query ∧
          encodeUnicode (if parts.path = [] then [0x2f] else parts.path) =
            url.pathname ∧
          (encodeUnicode parts.query = [] ∨
            encodeUnicode parts.query = [0x3f] ∨
            encodeUnicode parts.query = url.search))))) := by
  unfold analyzeParts at analyzed
  dsimp only at analyzed
  split at analyzed
  · rename_i mark
    exact .inl ⟨mark, _, analyzed⟩
  · rename_i mark
    split at analyzed
    · exact (live _ analyzed).elim
    · rename_i noUser
      refine .inr ⟨mark, fun member => noUser (contains_iff_mem.mpr member),
        ?_⟩
      split at analyzed
      · rename_i unescaped
        exact .inl ⟨unescaped, _, analyzed⟩
      · rename_i plain
        refine .inr ⟨eq_false_of_ne_true plain, ?_⟩
        generalize encodeUnicode (if parts.path = [] then [0x2f]
          else parts.path) = requestPath at analyzed ⊢
        split at analyzed
        · exact .inl ⟨_, analyzed⟩
        · rename_i same
          simp only [not_or, not_and_or, not_not, ne_eq] at same
          split at analyzed
          · exact (live _ analyzed).elim
          · rename_i short
            rw [same.2.1] at analyzed short
            exact .inr ⟨_, _, analyzed, rfl, Nat.le_of_not_lt short, rfl,
              same.2.1, same.2.2⟩

theorem encodeUnicode_eq_nil {part : Text} (empty : encodeUnicode part = []) :
    part = [] := by
  cases part with
  | nil => rfl
  | cons unit rest =>
      obtain ⟨point, points, read⟩ : ∃ point points,
          Utf16.codePoints (unit :: rest) = point :: points := by
        cases rest with
        | nil => exact ⟨_, _, rfl⟩
        | cons next rest =>
            rw [Utf16.codePoints]
            split <;> exact ⟨_, _, rfl⟩
      rw [encodeUnicode, read, flatMap_cons, append_eq_nil_iff] at empty
      have first := empty.1
      split at first
      · cases first
      · exact absurd first (encodeURIComponent_ne point)

theorem analyzeUrl_accepted {other : SourceProtocol}
    {sourceUrl requestUrl host : Text}
    (accepted : .accepted other sourceUrl requestUrl host =
      analyzeUrl parseUrl raw scheme protocol) :
    other = protocol ∧ ∃ url parts, parseUrl raw = some url ∧
      urlParts raw = some parts ∧ parts.query ≠ [0x3f] ∧
      0x40 ∉ parts.authority ∧ raw.any isUnescaped = false ∧
      host = url.host ∧ sourceUrl.length ≤ maxDownloadUrlBytes ∧
      sourceUrl = requestUrl ++ encodeUnicode parts.fragment ∧
      requestUrl = protocol.text ++ 0x3a :: 0x2f :: 0x2f :: url.host ++
        url.pathname ++ encodeUnicode parts.query ∧
      encodeUnicode (if parts.path = [] then [0x2f] else parts.path) =
        url.pathname ∧
      (encodeUnicode parts.query = [] ∨ encodeUnicode parts.query = [0x3f] ∨
        encodeUnicode parts.query = url.search) := by
  rcases analyzeUrl_cases accepted nofun with ⟨_, _, offered⟩ |
    ⟨_, url, parsed, ⟨_, _, offered⟩ | ⟨parts, split, outcome⟩⟩
  · cases offered
  · cases offered
  · rcases analyzeParts_cases outcome nofun with ⟨_, _, offered⟩ |
      ⟨mark, noUser, ⟨_, _, offered⟩ | ⟨plain, ⟨_, offered⟩ |
        ⟨source, request, equal, sourceEqual, short, requestEqual, path,
          query⟩⟩⟩
    · cases offered
    · cases offered
    · cases offered
    · cases equal
      exact ⟨rfl, url, parts, parsed, split, mark, noUser, plain, rfl, short,
        sourceEqual, requestEqual, path, query⟩

/-- What an analysis accepts as something else than a magnet link. -/
theorem accepted_web {sourceUrl requestUrl host : Text}
    (accepted : analyzeDownloadSource parseUrl parseMagnet raw protocols =
      .accepted protocol sourceUrl requestUrl host)
    (web : protocol ≠ .magnet) :
    ∃ scheme url parts, Passed parseUrl raw scheme protocol url parts ∧
      protocols.contains protocol = true ∧ host = url.host ∧
      sourceUrl.length ≤ maxDownloadUrlBytes ∧
      sourceUrl = requestUrl ++ encodeUnicode parts.fragment ∧
      requestUrl = protocol.text ++ 0x3a :: 0x2f :: 0x2f :: url.host ++
        url.pathname ++ encodeUnicode parts.query ∧
      encodeUnicode (if parts.path = [] then [0x2f] else parts.path) =
        url.pathname ∧
      (parts.query = [] ∨ encodeUnicode parts.query = url.search) := by
  obtain ⟨_, _, clean, scheme, protocol', named, found, allowed, outcome⟩ :=
    analyze_cases accepted nofun
  rcases outcome with ⟨_, _, offered⟩ | ⟨whole, outcome⟩
  · cases offered
  · split at outcome
    · exact absurd (analyzeMagnet_cases outcome).2.2.1 web
    · obtain ⟨rfl, url, parts, parsed, split, mark, noUser, plain, host, short,
        source, request, path, query⟩ := analyzeUrl_accepted outcome
      have passed : Passed parseUrl raw scheme protocol url parts :=
        { parsed := ⟨clean, named,
            sourceProtocol_text found ▸ web_of_protocol web, parsed⟩
          found := found
          whole := whole
          split := split
          mark := mark
          noUser := noUser
          plain := plain }
      refine ⟨scheme, url, parts, passed, allowed, host, short, source, request,
        path, ?_⟩
      rcases query with empty | single | same
      · exact .inl (encodeUnicode_eq_nil empty)
      · cases parted : parts.query with
        | nil => exact .inl rfl
        | cons first rest =>
            obtain rfl : first = 0x3f :=
              passed.delimited.marked first (by rw [parted]; rfl)
            rw [parted, encodeUnicode_cons rfl, cons_eq_cons] at single
            rw [parted, encodeUnicode_eq_nil single.2] at mark
            exact absurd rfl mark
      · exact .inr same

/-- An accepted URL has the canonical spelling of the parser. -/
theorem accepted_href (laws : UrlLaws parseUrl) {url : Url} {parts : Parts}
    (passed : Passed parseUrl raw scheme protocol url parts)
    (query : parts.query = [] ∨ encodeUnicode parts.query = url.search) :
    encodeUnicode parts.query = url.search ∧
      url.href = protocol.text ++ 0x3a :: 0x2f :: 0x2f :: url.host ++
        url.pathname ++ url.search ++ encodeUnicode parts.fragment := by
  obtain ⟨-, search, -⟩ := laws.plain passed.parsed passed.split passed.noUser
    passed.plain passed.mark
  constructor
  · rcases query with empty | same
    · rw [empty, search.mpr empty]
      rfl
    · exact same
  · rw [passed.href laws]
    simp [written, Parts.behind, canonicalParts]

theorem accepted_again (laws : UrlLaws parseUrl)
    {sourceUrl requestUrl host : Text}
    (accepted : analyzeDownloadSource parseUrl parseMagnet raw protocols =
      .accepted protocol sourceUrl requestUrl host)
    (web : protocol ≠ .magnet) (plainHost : host.any isUnescaped = false) :
    analyzeDownloadSource parseUrl parseMagnet sourceUrl protocols =
      .accepted protocol sourceUrl requestUrl host ∧
    (∀ unit ∈ requestUrl, isPrintable unit = true) ∧ 0x23 ∉ requestUrl ∧
    (∀ unit ∈ host, endsAuthority unit = false ∧ unit ≠ 0x40) ∧
    ∃ scheme parts, raw = written scheme parts ∧ parts.Delimited ∧
      scheme.map lowerAscii = protocol.text ∧
      requestUrl = protocol.text ++ 0x3a :: 0x2f :: 0x2f :: host ++
        encodeUnicode (if parts.path = [] then [0x2f] else parts.path) ++
        encodeUnicode parts.query := by
  obtain ⟨scheme, url, parts, passed, allowed, rfl, short, source, request,
    path, query⟩ := accepted_web accepted web
  have parsed := passed.parsed
  obtain ⟨search, href⟩ := accepted_href laws passed query
  rw [search] at request
  have sourceHref : sourceUrl = url.href := by
    rw [source, request, href]
  refine ⟨?_, ?_, ?_, ?_, scheme, parts,
    (written_of_urlParts parsed.named passed.split).1, passed.delimited,
    (sourceProtocol_text passed.found).symm, ?_⟩
  · rw [sourceHref, passed.analyze_href laws plainHost, ← sourceHref,
      if_neg (Nat.not_lt.mpr short), if_pos allowed, request]
  · intro unit member
    refine (laws.href parsed).1 unit ?_
    rw [← sourceHref, source]
    exact mem_append_left _ member
  · rw [request]
    have scheme' : (0x23 : UInt16) ∉ protocol.text := fun member =>
      absurd ((protocol_valid protocol).units _ member) (by decide)
    have host' : (0x23 : UInt16) ∉ url.host := fun member =>
      absurd (laws.hostUnits parsed _ member).1 (by decide)
    have path' : (0x23 : UInt16) ∉ url.pathname := fun member =>
      absurd ((laws.pathname parsed).2 _ member).1 (by decide)
    simp [scheme', host', path', (laws.search parsed).2.2]
  · intro unit member
    have units := laws.hostUnits parsed unit member
    exact ⟨units.1, units.2.1⟩
  · rw [request, path, search]

end Cases

end Motrix.DownloadSource
